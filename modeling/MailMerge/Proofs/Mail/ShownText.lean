/-
# Texts as their fields show them

What stands on the line of a text field once its folds are joined. Readable words stand there as
they are. A stretch of neighbouring words that are not readable stands there as encoded words with
single spaces between them, and the spaces at the end of the stretch follow as they are. Where the
lines were broken makes no difference.
-/

import MailMerge.Proofs.Mail.EncodedWord
import MailMerge.Proofs.Mail.Folding
import MailMerge.Proofs.Mail.Unfolding

namespace MailMerge.Mail

open MailMerge.Text

/-! ## Lines -/

/-- The folds of a folded text are joined by themselves, whatever follows it. -/
theorem unfolded_append_of_isFolded {first : List Char} (folded : IsFolded first)
    (second : List Char) : unfolded (first ++ second) = unfolded first ++ unfolded second := by
  induction folded with
  | nil => rfl
  | cons plain _ ih =>
      rw [List.cons_append, unfolded_cons plain.1, unfolded_cons plain.1, ih, List.cons_append]
  | fold _ ih =>
      simp only [List.cons_append]
      rw [unfolded, ih, unfolded, List.cons_append]

namespace FieldWriter

variable {w : FieldWriter}

/-- The line that has been written, with its folds joined and the spaces held back. -/
def line (w : FieldWriter) : List Char :=
  unfolded w.finish

theorem line_eq (folded : IsFolded w.written) :
    w.line = unfolded w.written ++ List.replicate w.heldSpaces ' ' := by
  rw [line, finish, unfolded_append_of_isFolded folded,
    unfolded_eq_self (unbroken_replicate (by decide) _)]

/-- Spaces that are held back stand at the end of the line. -/
theorem line_hold (folded : IsFolded w.written) (n : Nat) :
    FieldWriter.line { w with heldSpaces := w.heldSpaces + n } =
      w.line ++ List.replicate n ' ' := by
  rw [line_eq (w := { w with heldSpaces := w.heldSpaces + n }) folded, line_eq folded,
    List.append_assoc, List.replicate_add]

theorem line_space (folded : IsFolded w.written) : w.space.line = w.line ++ [' '] :=
  line_hold folded 1

theorem line_write (folded : IsFolded w.written) {text : List Char} (unbroken : Unbroken text) :
    (w.write text).line = w.line ++ text := by
  have hline : (w.write text).line = unfolded (w.finish ++ text) := by
    simp [line, finish, write]
  rw [hline, unfolded_append_of_isFolded (isFolded_finish folded), unfolded_eq_self unbroken, line]

/-- A line break before held spaces is joined again. -/
theorem line_breakLine_write (folded : IsFolded w.written) (held : 0 < w.heldSpaces)
    {text : List Char} (unbroken : Unbroken text) :
    (w.breakLine.write text).line = w.line ++ text := by
  obtain ⟨n, hn⟩ := Nat.exists_eq_add_of_lt held
  have hspaces : Unbroken (List.replicate n ' ' ++ text) :=
    unbroken_append.2 ⟨unbroken_replicate (by decide) n, unbroken⟩
  have hline : (w.breakLine.write text).line =
      unfolded (w.written ++ '\r' :: '\n' :: ' ' :: (List.replicate n ' ' ++ text)) := by
    simp [line, finish, write, breakLine, lineBreak, hn, List.replicate_succ]
  rw [hline, unfolded_append_of_isFolded folded, unfolded, unfolded_eq_self hspaces,
    line_eq folded, hn, Nat.zero_add, List.replicate_succ, List.append_assoc]
  rfl

theorem line_writeWord (folded : IsFolded w.written) {word : List Char} (unbroken : Unbroken word) :
    (w.writeWord word).line = w.line ++ word := by
  rw [writeWord]
  split
  · next hbreak => exact line_breakLine_write folded hbreak.2.1 unbroken
  · exact line_write folded unbroken

theorem line_foldFrom (folded : IsFolded w.written) {word text : List Char}
    (hword : Unbroken word) (htext : Unbroken text) :
    (w.foldFrom word text).line = w.line ++ word.reverse ++ text := by
  have hreverse {word : List Char} (hword : Unbroken word) : Unbroken word.reverse :=
    hword.of_subset fun c hc => List.mem_reverse.1 hc
  fun_induction foldFrom w word text with
  | case1 w word hempty => simp [List.isEmpty_iff.1 hempty]
  | case2 w word => rw [line_writeWord folded (hreverse hword), List.append_nil]
  | case3 w word rest ih =>
      have hrest := (unbroken_cons.1 htext).2
      by_cases hempty : word.isEmpty
      · rw [if_pos hempty] at ih ⊢
        rw [ih folded unbroken_nil hrest, line_space folded, List.isEmpty_iff.1 hempty]
        simp
      · rw [if_neg hempty] at ih ⊢
        have hwritten := isFolded_writeWord folded (hreverse hword)
        rw [ih hwritten unbroken_nil hrest, line_space hwritten,
          line_writeWord folded (hreverse hword)]
        simp
  | case4 w word c rest _ ih =>
      obtain ⟨hc, hrest⟩ := unbroken_cons.1 htext
      rw [ih folded (unbroken_cons.2 ⟨hc, hword⟩) hrest]
      simp

theorem line_fold (folded : IsFolded w.written) {text : List Char} (unbroken : Unbroken text) :
    (w.fold text).line = w.line ++ text := by
  rw [fold, line_foldFrom folded unbroken_nil unbroken, List.reverse_nil, List.append_nil]

end FieldWriter

/-! ## Encoded words -/

/-- A text that one encoded word can hold. -/
structure FitsWord (text : List Char) : Prop where
  filled : text ≠ []
  short : (encodedWord text).length ≤ encodedWordLimit

/-- Encoded words with a space between neighbours that hold a text together. -/
def IsEncoding (text encoding : List Char) : Prop :=
  ∃ first others, (∀ chunk ∈ first :: others, FitsWord chunk) ∧ text = first ++ others.flatten ∧
    encoding = encodedWord first ++ others.flatMap fun chunk => ' ' :: encodedWord chunk

/-- As much as fits is taken: no more than there is room for, and no less unless less is left than
the next character takes. -/
theorem encodedLength_take_fittingCount (room : Nat) (text : List Char) :
    encodedLength (text.take (fittingCount room text)) ≤ room ∧
      (text.drop (fittingCount room text) ≠ [] →
        room < encodedLength (text.take (fittingCount room text)) + 4) := by
  induction text generalizing room with
  | nil => exact ⟨Nat.zero_le _, fun h => absurd rfl h⟩
  | cons c rest ih =>
      rw [fittingCount]
      split
      · next hfits =>
        obtain ⟨hle, hlt⟩ := ih (room - c.utf8Size)
        rw [List.take_succ_cons, List.drop_succ_cons, encodedLength]
        refine ⟨by omega, fun hmore => ?_⟩
        have := hlt hmore
        omega
      · next hfull =>
        have := c.utf8Size_le_four
        refine ⟨Nat.zero_le _, fun _ => ?_⟩
        rw [List.take_zero, encodedLength]
        omega

namespace FieldWriter

/-- What one encoded word takes of a text: at least a character, and as many as fit. -/
theorem encodedLength_chunk (room : Nat) (c : Char) (rest : List Char) :
    let more := fittingCount room (c :: rest) - 1
    encodedLength (c :: rest.take more) ≤ max room 4 ∧
      (rest.drop more ≠ [] → room < encodedLength (c :: rest.take more) + 4) := by
  have hsize := c.utf8Size_le_four
  rw [fittingCount]
  split
  · obtain ⟨hle, hlt⟩ := encodedLength_take_fittingCount (room - c.utf8Size) rest
    simp only [Nat.add_sub_cancel, encodedLength]
    refine ⟨by omega, fun hmore => ?_⟩
    have := hlt hmore
    omega
  · simp only [Nat.zero_sub, List.take_zero, encodedLength]
    exact ⟨by omega, fun _ => by omega⟩

variable {w : FieldWriter}

/-- An encoded word is short, and behind it there is no room for another one on the line unless the
text has ended. -/
theorem fitsWord_chunk (w : FieldWriter) (c : Char) (rest : List Char) {more : Nat}
    (hmore : more = fittingCount (encodedWordRoom w.lineLength) (c :: rest) - 1) :
    FitsWord (c :: rest.take more) ∧
      (rest.drop more ≠ [] →
        encodedWordRoom (w.write (encodedWord (c :: rest.take more))).lineLength = 0) := by
  obtain ⟨hle, hlt⟩ := encodedLength_chunk (encodedWordRoom w.lineLength) c rest
  rw [← hmore] at hle hlt
  have hword := length_encodedWord (c :: rest.take more)
  have hbytes : encodedLength (encodedWord (c :: rest.take more)) =
      (encodedWord (c :: rest.take more)).length :=
    encodedLength_of_ascii fun d hd =>
      toNat_lt_of_isVisible (isVisible_of_mem_encodedWord _ d hd)
  simp only [encodedWordRoom, lineLimit] at hle hlt ⊢
  refine ⟨⟨List.cons_ne_nil _ _, ?_⟩, fun hleft => ?_⟩
  · rw [hword, encodedWordLimit]
    omega
  · have := hlt hleft
    rw [write, hbytes, hword]
    dsimp only
    omega

theorem line_continueLine_write (folded : IsFolded w.written) {text : List Char}
    (unbroken : Unbroken text) :
    (w.continueLine.write text).line =
      if w.heldSpaces = 0 then w.line ++ ' ' :: text else w.line ++ text := by
  rw [continueLine]
  split
  · rw [line_breakLine_write (w := w.space) folded (Nat.succ_pos _) unbroken, line_space folded,
      List.append_assoc, List.singleton_append]
  · exact line_breakLine_write folded (by omega) unbroken

/-- Behind an encoded word the line is full, so each further one begins a line with a space. -/
theorem exists_line_writeEncoded_later {isLater : Bool} {text : List Char} (later : isLater = true)
    (folded : IsFolded w.written) (held : w.heldSpaces = 0)
    (full : text ≠ [] → encodedWordRoom w.lineLength = 0) :
    ∃ chunks : List (List Char), (∀ chunk ∈ chunks, FitsWord chunk) ∧ text = chunks.flatten ∧
      (w.writeEncoded isLater text).line =
        w.line ++ chunks.flatMap fun chunk => ' ' :: encodedWord chunk := by
  fun_induction writeEncoded w isLater text with
  | case1 => exact ⟨[], by simp, rfl, by simp⟩
  | case2 w isLater c rest isFull w' more ih =>
      have hfull : isFull := by
        have hroom := full (List.cons_ne_nil _ _)
        have := c.utf8Size_pos
        simp only [isFull, hroom]
        rw [fittingCount, if_neg (by omega)]
      have hw' : w' = w.continueLine := if_pos ⟨hfull, .inl later⟩
      obtain ⟨fits, hroom⟩ := fitsWord_chunk w' c rest rfl
      have hword := unbroken_encodedWord (c :: rest.take more)
      have hwritten : IsFolded (w'.write (encodedWord (c :: rest.take more))).written := by
        rw [hw']
        exact isFolded_continueLine_write folded hword
      obtain ⟨chunks, hchunks, hrest, hline⟩ := ih rfl hwritten rfl hroom
      refine ⟨(c :: rest.take more) :: chunks, List.forall_mem_cons.2 ⟨fits, hchunks⟩, ?_, ?_⟩
      · rw [List.flatten_cons, ← hrest, List.cons_append, List.take_append_drop]
      · rw [hline, hw', line_continueLine_write folded hword, if_pos held, List.flatMap_cons,
          List.append_assoc]

/-- A text is written as encoded words that hold it. -/
theorem exists_line_writeEncoded (folded : IsFolded w.written) {text : List Char}
    (filled : text ≠ []) :
    ∃ encoding, IsEncoding text encoding ∧
      (w.writeEncoded false text).line = w.line ++ encoding := by
  fun_cases writeEncoded w false text with
  | case1 => exact absurd rfl filled
  | case2 c rest isFull w' more =>
      obtain ⟨fits, hroom⟩ := fitsWord_chunk w' c rest rfl
      have hword := unbroken_encodedWord (c :: rest.take more)
      have hfirst : IsFolded (w'.write (encodedWord (c :: rest.take more))).written ∧
          (w'.write (encodedWord (c :: rest.take more))).line =
            w.line ++ encodedWord (c :: rest.take more) := by
        by_cases hbreak : isFull ∧ (false = true ∨ 0 < w.heldSpaces)
        · have held : 0 < w.heldSpaces := by simpa using hbreak.2
          rw [show w' = w.continueLine from if_pos hbreak]
          refine ⟨isFolded_continueLine_write folded hword, ?_⟩
          rw [line_continueLine_write folded hword, if_neg (by omega)]
        · rw [show w' = w from if_neg hbreak]
          exact ⟨isFolded_write folded hword, line_write folded hword⟩
      obtain ⟨chunks, hchunks, hrest, hline⟩ :=
        exists_line_writeEncoded_later rfl hfirst.1 rfl hroom
      refine ⟨_, ⟨c :: rest.take more, chunks, List.forall_mem_cons.2 ⟨fits, hchunks⟩, ?_, rfl⟩, ?_⟩
      · rw [← hrest, List.cons_append, List.take_append_drop]
      · rw [hline, hfirst.2, List.append_assoc]

end FieldWriter

/-! ## Texts -/

/-- What stands on the line of a field for words of its text. -/
inductive Shows : List (List Char) → List Char → Prop where
  | nil : Shows [] []
  | readable {word : List Char} {words : List (List Char)} {shown : List Char}
      (readable : word.all FieldWriter.isReadable) (others : Shows words shown) :
      Shows (word :: words) (word ++ shown)
  /-- All neighbours that are not readable are encoded together. -/
  | encoded {stretch words : List (List Char)} {core encoding shown : List Char} {spaces : Nat}
      (filled : stretch ≠ [])
      (unreadable : ∀ word ∈ stretch, word.all FieldWriter.isReadable = false)
      (complete : ∀ word ∈ words.head?, word.all FieldWriter.isReadable)
      (text : stretch.flatten = core ++ List.replicate spaces ' ')
      (trimmed : core.getLast? ≠ some ' ') (encodes : IsEncoding core encoding)
      (others : Shows words shown) :
      Shows (stretch ++ words) (encoding ++ List.replicate spaces ' ' ++ shown)

namespace FieldWriter

variable {w : FieldWriter}

/-- Gathered words are written encoded, with the spaces at their end left over. -/
theorem exists_line_writeGathered (folded : IsFolded w.written) {gathered : List Char}
    (unreadable : gathered.all isReadable = false) :
    ∃ core encoding spaces, gathered = core ++ List.replicate spaces ' ' ∧
      core.getLast? ≠ some ' ' ∧ IsEncoding core encoding ∧
      (w.writeGathered gathered).line = w.line ++ encoding ++ List.replicate spaces ' ' := by
  have hspaces : gathered.reverse.takeWhile (· == ' ') =
      List.replicate (gathered.reverse.takeWhile (· == ' ')).length ' ' :=
    List.eq_replicate_iff.2 ⟨rfl, fun c hc => by simpa using List.mem_takeWhile_imp hc⟩
  have htext : gathered = (gathered.reverse.dropWhile (· == ' ')).reverse ++
      List.replicate (gathered.reverse.takeWhile (· == ' ')).length ' ' := by
    rw [← List.reverse_replicate, ← hspaces, ← List.reverse_append,
      List.takeWhile_append_dropWhile, List.reverse_reverse]
  have htrimmed : (gathered.reverse.dropWhile (· == ' ')).reverse.getLast? ≠ some ' ' := by
    rw [List.getLast?_reverse]
    intro hhead
    have := List.head?_dropWhile_not (· == ' ') gathered.reverse
    rw [hhead] at this
    exact absurd this (by decide)
  have hfilled : (gathered.reverse.dropWhile (· == ' ')).reverse ≠ [] := by
    intro hempty
    have hspace : isReadable ' ' = true := by decide
    rw [htext, hempty, List.nil_append, List.all_replicate, hspace, ite_self] at unreadable
    cases unreadable
  obtain ⟨encoding, encodes, hline⟩ := exists_line_writeEncoded folded hfilled
  refine ⟨_, encoding, _, htext, htrimmed, encodes, ?_⟩
  rw [writeGathered, ← hline]
  exact line_hold (isFolded_writeEncoded folded false _) _

theorem writeGathered_nil (w : FieldWriter) : w.writeGathered [] = w := by
  rw [writeGathered, List.reverse_nil, List.takeWhile_nil, List.dropWhile_nil, List.reverse_nil,
    writeEncoded]
  rfl

/-- A stretch of gathered words is written before whatever follows it. -/
theorem exists_shows_writeGathered (folded : IsFolded w.written) {stretch : List (List Char)}
    (unreadable : ∀ word ∈ stretch, word.all isReadable = false) :
    ∃ written, (w.writeGathered stretch.flatten).line = w.line ++ written ∧
      ∀ words shown, (∀ word ∈ words.head?, word.all isReadable) → Shows words shown →
        Shows (stretch ++ words) (written ++ shown) := by
  cases stretch with
  | nil => exact ⟨[], by rw [List.flatten_nil, writeGathered_nil, List.append_nil],
      fun words shown _ shows => shows⟩
  | cons first stretch =>
      have hgathered : (first :: stretch).flatten.all isReadable = false := by
        rw [List.flatten_cons, List.all_append, unreadable first (by simp), Bool.false_and]
      obtain ⟨core, encoding, spaces, htext, htrimmed, encodes, hline⟩ :=
        exists_line_writeGathered folded hgathered
      refine ⟨encoding ++ List.replicate spaces ' ', ?_, fun words shown complete shows => ?_⟩
      · rw [hline, List.append_assoc]
      · exact .encoded (List.cons_ne_nil _ _) unreadable complete htext htrimmed encodes shows

/-- Words are written so that the line of the field shows them. -/
theorem exists_shows_writeWords (folded : IsFolded w.written) {stretch : List (List Char)}
    (unreadable : ∀ word ∈ stretch, word.all isReadable = false) (words : List (List Char)) :
    ∃ shown, Shows (stretch ++ words) shown ∧
      (w.writeWords stretch.flatten words).line = w.line ++ shown := by
  induction words generalizing w stretch with
  | nil =>
      obtain ⟨written, hline, hshows⟩ := exists_shows_writeGathered folded unreadable
      refine ⟨written ++ [], hshows [] [] (by simp) .nil, ?_⟩
      rw [writeWords, hline, List.append_nil]
  | cons word words ih =>
      rw [writeWords]
      by_cases readable : word.all isReadable
      · have hplain := unbroken_of_isReadable readable
        have hgathered := isFolded_writeGathered folded stretch.flatten
        have hnone : ∀ other ∈ ([] : List (List Char)), other.all isReadable = false := by simp
        obtain ⟨written, hline, hshows⟩ := exists_shows_writeGathered folded unreadable
        obtain ⟨shown, shows, hrest⟩ := ih (isFolded_fold hgathered hplain) hnone
        rw [if_pos readable]
        refine ⟨written ++ (word ++ shown), ?_, ?_⟩
        · exact hshows (word :: words) _ (by simpa using readable) (.readable readable shows)
        · rw [List.flatten_nil] at hrest
          rw [hrest, line_fold hgathered hplain, hline]
          simp only [List.append_assoc]
      · have hword : word.all isReadable = false := Bool.eq_false_iff.2 readable
        have hlonger : ∀ other ∈ stretch ++ [word], other.all isReadable = false :=
          List.forall_mem_append.2 ⟨unreadable, by simpa using hword⟩
        obtain ⟨shown, shows, hrest⟩ := ih folded hlonger
        rw [if_neg readable]
        refine ⟨shown, ?_, ?_⟩
        · rwa [List.append_assoc, List.singleton_append] at shows
        · rwa [List.flatten_append, List.flatten_singleton] at hrest

end FieldWriter

/-- The line of a text field shows the words of its text. -/
theorem shows_unfolded_writeTextValue (length : Nat) (text : List Char) :
    Shows (wordsOf text) (unfolded (writeTextValue length text)) := by
  have hnone : ∀ word ∈ ([] : List (List Char)), word.all FieldWriter.isReadable = false := by
    simp
  obtain ⟨shown, shows, hline⟩ :=
    FieldWriter.exists_shows_writeWords (w := .start length) .nil hnone (wordsOf text)
  have hshown : unfolded (writeTextValue length text) = shown := hline
  rw [hshown]
  exact shows

end MailMerge.Mail
