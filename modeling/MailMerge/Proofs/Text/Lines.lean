/-
# Line endings and lines

Laws of the line structure of a text. Unifying line endings leaves no carriage
return and changes nothing where there is none. A text written as lines without
line breaks reads back as these lines, and the first empty line behind a block of
nonempty lines is the one that was written there.
-/

import MailMerge.Text.Lines

namespace MailMerge.Text

/-! ## Texts without line breaks -/

/-- A text without line breaks of either kind. -/
def Unbroken (text : List Char) : Prop :=
  '\r' ∉ text ∧ '\n' ∉ text

instance (text : List Char) : Decidable (Unbroken text) :=
  inferInstanceAs (Decidable (_ ∧ _))

theorem unbroken_iff {text : List Char} :
    Unbroken text ↔ ∀ c ∈ text, c ≠ '\r' ∧ c ≠ '\n' := by
  rw [Unbroken]
  refine ⟨fun ⟨hreturn, hfeed⟩ c hc => ⟨?_, ?_⟩, fun plain => ⟨fun hmem => ?_, fun hmem => ?_⟩⟩
  · exact fun heq => hreturn (heq ▸ hc)
  · exact fun heq => hfeed (heq ▸ hc)
  · exact (plain _ hmem).1 rfl
  · exact (plain _ hmem).2 rfl

@[simp]
theorem unbroken_nil : Unbroken [] := by simp [Unbroken]

@[simp]
theorem unbroken_cons {c : Char} {text : List Char} :
    Unbroken (c :: text) ↔ (c ≠ '\r' ∧ c ≠ '\n') ∧ Unbroken text := by
  simp [unbroken_iff]

@[simp]
theorem unbroken_append {first second : List Char} :
    Unbroken (first ++ second) ↔ Unbroken first ∧ Unbroken second := by
  simp only [unbroken_iff, List.forall_mem_append]

theorem Unbroken.of_subset {first second : List Char} (unbroken : Unbroken second)
    (subset : first ⊆ second) : Unbroken first :=
  ⟨fun hmem => unbroken.1 (subset hmem), fun hmem => unbroken.2 (subset hmem)⟩

/-- A character of one kind ends no line when the line breaks are of another kind. -/
theorem ne_lineBreak_of {p : Char → Bool} (outside : p '\r' = false ∧ p '\n' = false) {c : Char}
    (inside : p c) : c ≠ '\r' ∧ c ≠ '\n' := by
  refine ⟨?_, ?_⟩
  · rintro rfl
    exact absurd inside (by simp [outside.1])
  · rintro rfl
    exact absurd inside (by simp [outside.2])

theorem unbroken_of_forall {p : Char → Bool} (outside : p '\r' = false ∧ p '\n' = false)
    {text : List Char} (inside : ∀ c ∈ text, p c) : Unbroken text :=
  unbroken_iff.2 fun c hc => ne_lineBreak_of outside (inside c hc)

theorem unbroken_replicate {c : Char} (plain : c ≠ '\r' ∧ c ≠ '\n') (n : Nat) :
    Unbroken (List.replicate n c) :=
  unbroken_iff.2 fun _ hd => (List.eq_of_mem_replicate hd).symm ▸ plain

/-! ## Unified line endings -/

/-- A character other than a carriage return stays as it is. -/
theorem unifyLineEndings_cons {c : Char} (plain : c ≠ '\r') (rest : List Char) :
    unifyLineEndings (c :: rest) = c :: unifyLineEndings rest := by
  rw [unifyLineEndings]
  · exact fun _ heq => absurd heq plain
  · exact fun heq => absurd heq plain

/-- No carriage return is left. -/
theorem return_not_mem_unifyLineEndings (text : List Char) :
    '\r' ∉ unifyLineEndings text := by
  fun_induction unifyLineEndings text with
  | case1 => simp
  | case2 rest ih => simpa using ih
  | case3 rest _ ih => simpa using ih
  | case4 c rest _ plain ih =>
      have hne : '\r' ≠ c := fun heq => plain heq.symm
      simpa [hne] using ih

/-- Where there is no carriage return nothing changes. -/
theorem unifyLineEndings_eq_self {text : List Char} (plain : '\r' ∉ text) :
    unifyLineEndings text = text := by
  induction text with
  | nil => rfl
  | cons c rest ih =>
      rw [List.mem_cons, not_or] at plain
      rw [unifyLineEndings_cons (Ne.symm plain.1), ih plain.2]

/-- A carriage return alone becomes a line feed. -/
theorem unifyLineEndings_return_cons {rest : List Char} (alone : rest.head? ≠ some '\n') :
    unifyLineEndings ('\r' :: rest) = '\n' :: unifyLineEndings rest := by
  rw [unifyLineEndings]
  rintro behind rfl
  exact alone rfl

theorem unifyLineEndings_append {first : List Char} (plain : '\r' ∉ first)
    (second : List Char) :
    unifyLineEndings (first ++ second) = first ++ unifyLineEndings second := by
  induction first with
  | nil => rfl
  | cons c first ih =>
      rw [List.mem_cons, not_or] at plain
      rw [List.cons_append, unifyLineEndings_cons (Ne.symm plain.1), ih plain.2, List.cons_append]

/-- A character is kept, or it is a carriage return that became a line feed. -/
theorem mem_unifyLineEndings {c : Char} {text : List Char} (hc : c ∈ text) :
    c ∈ unifyLineEndings text ∨ c = '\r' ∧ '\n' ∈ unifyLineEndings text := by
  fun_induction unifyLineEndings text with
  | case1 => exact absurd hc List.not_mem_nil
  | case2 rest ih =>
      rcases List.mem_cons.1 hc with rfl | hc
      · exact .inr ⟨rfl, by simp⟩
      · rcases List.mem_cons.1 hc with rfl | hc
        · exact .inl (by simp)
        · exact (ih hc).imp (List.mem_cons_of_mem _) (And.imp_right (List.mem_cons_of_mem _))
  | case3 rest _ ih =>
      rcases List.mem_cons.1 hc with rfl | hc
      · exact .inr ⟨rfl, by simp⟩
      · exact (ih hc).imp (List.mem_cons_of_mem _) (And.imp_right (List.mem_cons_of_mem _))
  | case4 d rest _ _ ih =>
      rcases List.mem_cons.1 hc with rfl | hc
      · exact .inl (by simp)
      · exact (ih hc).imp (List.mem_cons_of_mem _) (And.imp_right (List.mem_cons_of_mem _))

/-- A text without line feeds after its line endings were unified had no line endings. -/
theorem unifyLineEndings_eq_self_of_not_mem {text : List Char}
    (single : '\n' ∉ unifyLineEndings text) : unifyLineEndings text = text := by
  apply unifyLineEndings_eq_self
  intro hmem
  rcases mem_unifyLineEndings hmem with hkept | ⟨-, hfeed⟩
  · exact return_not_mem_unifyLineEndings text hkept
  · exact single hfeed

/-- Wherever a text with unified line endings is cut, the text before it can be cut. -/
theorem exists_append_of_unifyLineEndings {text first second : List Char}
    (heq : unifyLineEndings text = first ++ second) :
    ∃ before behind, text = before ++ behind ∧ unifyLineEndings before = first ∧
      unifyLineEndings behind = second := by
  fun_induction unifyLineEndings text generalizing first with
  | case1 =>
      obtain ⟨rfl, rfl⟩ := List.append_eq_nil_iff.1 heq.symm
      exact ⟨[], [], rfl, rfl, rfl⟩
  | case2 rest ih =>
      cases first with
      | nil => exact ⟨[], _, rfl, rfl, heq⟩
      | cons c first =>
          obtain ⟨rfl, hrest⟩ := List.cons.inj heq
          obtain ⟨before, behind, rfl, hfirst, hsecond⟩ := ih hrest
          exact ⟨'\r' :: '\n' :: before, behind, rfl, by rw [unifyLineEndings, hfirst], hsecond⟩
  | case3 rest alone ih =>
      cases first with
      | nil =>
          refine ⟨[], '\r' :: rest, rfl, rfl, ?_⟩
          rw [unifyLineEndings]
          · exact heq
          · exact alone
      | cons c first =>
          obtain ⟨rfl, hrest⟩ := List.cons.inj heq
          obtain ⟨before, behind, rfl, hfirst, hsecond⟩ := ih hrest
          refine ⟨'\r' :: before, behind, rfl, ?_, hsecond⟩
          rw [unifyLineEndings, hfirst]
          rintro others rfl
          exact alone (others ++ behind) rfl
  | case4 d rest _ plain ih =>
      cases first with
      | nil =>
          refine ⟨[], d :: rest, rfl, rfl, ?_⟩
          rw [unifyLineEndings_cons plain]
          exact heq
      | cons c first =>
          obtain ⟨rfl, hrest⟩ := List.cons.inj heq
          obtain ⟨before, behind, rfl, hfirst, hsecond⟩ := ih hrest
          refine ⟨d :: before, behind, rfl, ?_, hsecond⟩
          rw [unifyLineEndings_cons plain, hfirst]

/-! ## Parts and joined parts -/

theorem partsAt_ne_nil (mark : Char) (text : List Char) : partsAt mark text ≠ [] := by
  fun_cases partsAt mark text <;> simp

/-- A text without the mark is its only part. -/
theorem partsAt_of_not_mem {mark : Char} {text : List Char} (absent : mark ∉ text) :
    partsAt mark text = [text] := by
  induction text with
  | nil => rfl
  | cons c rest ih =>
      rw [List.mem_cons, not_or] at absent
      rw [partsAt, if_neg (Ne.symm absent.1), ih absent.2]

/-- A mark divides the parts of what stands before it from those of what stands behind it. -/
theorem partsAt_append_cons (mark : Char) (first rest : List Char) :
    partsAt mark (first ++ mark :: rest) = partsAt mark first ++ partsAt mark rest := by
  induction first with
  | nil => simp [partsAt]
  | cons c first ih =>
      obtain ⟨part, parts, hparts⟩ := List.exists_cons_of_ne_nil (partsAt_ne_nil mark first)
      rw [List.cons_append, partsAt, partsAt, ih, hparts]
      split <;> rfl

/-- The mark behind a text without it ends the first part. -/
theorem partsAt_append_mark {mark : Char} {part : List Char} (absent : mark ∉ part)
    (rest : List Char) : partsAt mark (part ++ mark :: rest) = part :: partsAt mark rest := by
  rw [partsAt_append_cons, partsAt_of_not_mem absent, List.singleton_append]

/-- Parts without the mark are found again in the joined text. -/
theorem partsAt_joinWith {mark : Char} {parts : List (List Char)} (nonempty : parts ≠ [])
    (absent : ∀ part ∈ parts, mark ∉ part) :
    partsAt mark (joinWith [mark] parts) = parts := by
  fun_induction joinWith [mark] parts with
  | case1 => exact absurd rfl nonempty
  | case2 part => exact partsAt_of_not_mem (absent part (by simp))
  | case3 part parts hne ih =>
      rw [List.append_assoc, List.singleton_append, partsAt_append_mark (absent part (by simp)),
        ih hne fun other hother => absent other (List.mem_cons_of_mem _ hother)]

/-- A character in front of joined parts belongs to the first of them. -/
theorem joinWith_cons_cons (separator : List Char) (c : Char) (part : List Char)
    (parts : List (List Char)) :
    joinWith separator ((c :: part) :: parts) = c :: joinWith separator (part :: parts) := by
  cases parts <;> rfl

/-- Joining the parts of a text gives the text back. -/
theorem joinWith_partsAt (mark : Char) (text : List Char) :
    joinWith [mark] (partsAt mark text) = text := by
  induction text with
  | nil => rfl
  | cons c rest ih =>
      obtain ⟨part, parts, hparts⟩ := List.exists_cons_of_ne_nil (partsAt_ne_nil mark rest)
      rw [hparts] at ih
      rw [partsAt, hparts]
      by_cases hc : c = mark
      · rw [if_pos hc, hc, joinWith, ih]
        · rfl
        · exact List.cons_ne_nil part parts
      · rw [if_neg hc, joinWith_cons_cons, ih]

/-- What stands before a text and lacks the mark belongs to its first part. -/
theorem partsAt_append {mark : Char} {part : List Char} (absent : mark ∉ part)
    (rest : List Char) :
    partsAt mark (part ++ rest) = (partsAt mark rest).modifyHead (part ++ ·) := by
  obtain ⟨first, others, hparts⟩ := List.exists_cons_of_ne_nil (partsAt_ne_nil mark rest)
  rw [hparts, List.modifyHead_cons]
  induction part with
  | nil => exact hparts
  | cons c part ih =>
      rw [List.mem_cons, not_or] at absent
      rw [List.cons_append, partsAt, if_neg (Ne.symm absent.1), ih absent.2, List.cons_append]

/-- The first part goes up to the first mark. -/
theorem head?_partsAt (mark : Char) (text : List Char) :
    (partsAt mark text).head? = some (text.takeWhile (· != mark)) := by
  induction text with
  | nil => rfl
  | cons c rest ih =>
      obtain ⟨part, parts, hparts⟩ := List.exists_cons_of_ne_nil (partsAt_ne_nil mark rest)
      rw [hparts, List.head?_cons, Option.some.injEq] at ih
      rw [partsAt, hparts]
      by_cases hc : c = mark
      · simp [hc]
      · simp [hc, ih]

/-- A joined text is made of the characters of its parts and of the separator. -/
theorem mem_of_mem_joinWith {separator : List Char} {parts : List (List Char)} {c : Char}
    (hc : c ∈ joinWith separator parts) : c ∈ separator ∨ ∃ part ∈ parts, c ∈ part := by
  fun_induction joinWith separator parts with
  | case1 => exact absurd hc List.not_mem_nil
  | case2 part => exact .inr ⟨part, by simp, hc⟩
  | case3 part parts _ ih =>
      rw [List.mem_append, List.mem_append] at hc
      rcases hc with (hc | hc) | hc
      · exact .inr ⟨part, by simp, hc⟩
      · exact .inl hc
      · rcases ih hc with hsep | ⟨other, hother, hc⟩
        · exact .inl hsep
        · exact .inr ⟨other, List.mem_cons_of_mem _ hother, hc⟩

/-- Parts that are unbroken stay so when they are joined. -/
theorem unbroken_joinWith {separator : List Char} (hseparator : Unbroken separator)
    {parts : List (List Char)} (hparts : ∀ part ∈ parts, Unbroken part) :
    Unbroken (joinWith separator parts) := by
  rw [unbroken_iff]
  intro c hc
  rcases mem_of_mem_joinWith hc with hc | ⟨part, hpart, hc⟩
  · exact unbroken_iff.1 hseparator c hc
  · exact unbroken_iff.1 (hparts part hpart) c hc

/-- No part holds the mark, and every part is made of characters of the text. -/
theorem not_mem_of_mem_partsAt {mark : Char} {text part : List Char}
    (hpart : part ∈ partsAt mark text) : mark ∉ part := by
  induction text generalizing part with
  | nil => simp_all [partsAt]
  | cons c rest ih =>
      rw [partsAt] at hpart
      split at hpart
      · rcases List.mem_cons.1 hpart with rfl | hpart
        · exact List.not_mem_nil
        · exact ih hpart
      · next hne =>
        split at hpart
        · next heq => exact absurd heq (partsAt_ne_nil mark rest)
        · next first others heq =>
          rw [heq] at ih
          rcases List.mem_cons.1 hpart with rfl | hpart
          · rw [List.mem_cons, not_or]
            exact ⟨Ne.symm hne, ih (List.mem_cons_self ..)⟩
          · exact ih (List.mem_cons_of_mem _ hpart)

theorem mem_of_mem_partsAt {mark c : Char} {text part : List Char}
    (hpart : part ∈ partsAt mark text) (hc : c ∈ part) : c ∈ text := by
  induction text generalizing part with
  | nil => simp_all [partsAt]
  | cons d rest ih =>
      rw [partsAt] at hpart
      split at hpart
      · rcases List.mem_cons.1 hpart with rfl | hpart
        · exact absurd hc List.not_mem_nil
        · exact List.mem_cons_of_mem _ (ih hpart hc)
      · split at hpart
        · next heq => exact absurd heq (partsAt_ne_nil mark rest)
        · next first others heq =>
          rw [heq] at ih
          rcases List.mem_cons.1 hpart with rfl | hpart
          · rcases List.mem_cons.1 hc with rfl | hc
            · exact List.mem_cons_self ..
            · exact List.mem_cons_of_mem _ (ih (List.mem_cons_self ..) hc)
          · exact List.mem_cons_of_mem _ (ih (List.mem_cons_of_mem _ hpart) hc)

/-- Every character is the mark or stands in a part. -/
theorem exists_mem_partsAt (mark : Char) {c : Char} {text : List Char} (hc : c ∈ text) :
    c = mark ∨ ∃ part ∈ partsAt mark text, c ∈ part := by
  induction text with
  | nil => exact absurd hc List.not_mem_nil
  | cons d rest ih =>
      rw [partsAt]
      by_cases hd : d = mark
      · rw [if_pos hd]
        rcases List.mem_cons.1 hc with rfl | hc
        · exact .inl hd
        · rcases ih hc with hmark | ⟨part, hpart, hc⟩
          · exact .inl hmark
          · exact .inr ⟨part, List.mem_cons_of_mem _ hpart, hc⟩
      · rw [if_neg hd]
        cases hparts : partsAt mark rest with
        | nil => exact absurd hparts (partsAt_ne_nil mark rest)
        | cons first others =>
            rw [hparts] at ih
            rcases List.mem_cons.1 hc with rfl | hc
            · exact .inr ⟨c :: first, by simp, by simp⟩
            · rcases ih hc with hmark | ⟨part, hpart, hc⟩
              · exact .inl hmark
              · rcases List.mem_cons.1 hpart with rfl | hpart
                · exact .inr ⟨d :: part, by simp, by simp [hc]⟩
                · exact .inr ⟨part, by simp [hpart], hc⟩

/-! ## Lines -/

theorem dropFinalReturn_subset (line : List Char) : dropFinalReturn line ⊆ line := by
  fun_cases dropFinalReturn line with
  | case1 => exact List.dropLast_subset line
  | case2 => exact List.Subset.refl line

theorem dropFinalReturn_of_not_mem {line : List Char} (plain : '\r' ∉ line) :
    dropFinalReturn line = line := by
  fun_cases dropFinalReturn line with
  | case1 heq => exact absurd (List.mem_of_getLast? heq) plain
  | case2 => rfl

/-- A line is a part at the line feeds, perhaps without a final carriage return. -/
theorem exists_subset_of_mem_lines {text line : List Char} (hline : line ∈ lines text) :
    ∃ part ∈ partsAt '\n' text, line ⊆ part := by
  unfold lines at hline
  split at hline
  · exact absurd hline List.not_mem_nil
  · next last ended heq =>
    have hparts : partsAt '\n' text = ended.reverse ++ [last] := by
      rw [← List.reverse_reverse (partsAt '\n' text), heq, List.reverse_cons]
    have hclosed : line ∈ ended.reverse.map dropFinalReturn ∨ line = last := by
      split at hline
      · exact .inl hline
      · simpa using hline
    rw [hparts]
    rcases hclosed with hclosed | rfl
    · obtain ⟨part, hpart, rfl⟩ := List.mem_map.1 hclosed
      exact ⟨part, by simp_all, dropFinalReturn_subset part⟩
    · exact ⟨line, by simp, List.Subset.refl line⟩

/-- A line holds no line feed. -/
theorem lineFeed_not_mem_of_mem_lines {text line : List Char} (hline : line ∈ lines text) :
    '\n' ∉ line := by
  obtain ⟨part, hpart, hsubset⟩ := exists_subset_of_mem_lines hline
  exact fun hmem => not_mem_of_mem_partsAt hpart (hsubset hmem)

theorem mem_of_mem_lines {text line : List Char} {c : Char} (hline : line ∈ lines text)
    (hc : c ∈ line) : c ∈ text := by
  obtain ⟨part, hpart, hsubset⟩ := exists_subset_of_mem_lines hline
  exact mem_of_mem_partsAt hpart (hsubset hc)

theorem dropFinalReturn_isPrefix (line : List Char) : dropFinalReturn line <+: line := by
  fun_cases dropFinalReturn line with
  | case1 => exact List.dropLast_prefix line
  | case2 => exact List.prefix_refl line

/-- Rows without line feeds are the lines of the joined text, but for the carriage returns that
those before the last one lose. -/
theorem lines_joinWith_concat {start : List (List Char)} {last : List Char}
    (single : ∀ row ∈ start ++ [last], '\n' ∉ row) (filled : last ≠ []) :
    lines (joinWith ['\n'] (start ++ [last])) = start.map dropFinalReturn ++ [last] := by
  have nonempty : start ++ [last] ≠ [] := List.concat_ne_nil last start
  have hlast : last.isEmpty = false := List.isEmpty_eq_false_iff.2 filled
  unfold lines
  rw [partsAt_joinWith nonempty single, List.reverse_append]
  simp [hlast]

/-- Lines without line breaks read back, when none of them is empty. -/
theorem lines_joinWith {rows : List (List Char)} (nonempty : rows ≠ [])
    (filled : ∀ row ∈ rows, row ≠ []) (plain : ∀ row ∈ rows, '\r' ∉ row)
    (single : ∀ row ∈ rows, '\n' ∉ row) : lines (joinWith ['\n'] rows) = rows := by
  obtain ⟨start, last, rfl⟩ : ∃ start last, rows = start ++ [last] :=
    ⟨rows.dropLast, rows.getLast nonempty, (List.dropLast_concat_getLast nonempty).symm⟩
  have hstart : start.map dropFinalReturn = start := by
    rw [List.map_congr_left fun row hrow => dropFinalReturn_of_not_mem (plain row (by simp [hrow]))]
    exact List.map_id start
  rw [lines_joinWith_concat single (filled last (by simp)), hstart]

/-! ## The first empty line -/

/-- A text that is divided at its first empty line holds both sides and nothing else. -/
theorem eq_append_of_splitAtEmptyLine {text before after : List Char}
    (hsplit : splitAtEmptyLine text = some (before, after)) :
    text = before ++ '\n' :: '\n' :: after := by
  fun_induction splitAtEmptyLine text generalizing before after with
  | case1 => cases hsplit
  | case2 rest =>
      cases hsplit
      rfl
  | case3 c rest _ ih =>
      obtain ⟨⟨first, second⟩, hrest, heq⟩ := Option.map_eq_some_iff.1 hsplit
      cases heq
      rw [ih hrest, List.cons_append]

/-- Unless two line feeds begin a text, its first character stands before the division. -/
theorem splitAtEmptyLine_cons {c : Char} {rest : List Char}
    (inside : c = '\n' → rest.head? ≠ some '\n') :
    splitAtEmptyLine (c :: rest) =
      (splitAtEmptyLine rest).map fun (before, after) => (c :: before, after) := by
  rw [splitAtEmptyLine]
  rintro behind rfl rfl
  exact inside rfl rfl

/-- A text without line feeds stands before the division. -/
theorem splitAtEmptyLine_append {part : List Char} (single : '\n' ∉ part) (rest : List Char) :
    splitAtEmptyLine (part ++ rest) =
      (splitAtEmptyLine rest).map fun (before, after) => (part ++ before, after) := by
  induction part with
  | nil => simp
  | cons c part ih =>
      rw [List.mem_cons, not_or] at single
      rw [List.cons_append, splitAtEmptyLine_cons fun heq => absurd heq.symm single.1,
        ih single.2, Option.map_map]
      rfl

theorem head?_joinWith {separator : List Char} {rows : List (List Char)}
    (filled : ∀ row ∈ rows, row ≠ []) :
    (joinWith separator rows).head? = rows.head?.bind List.head? := by
  cases rows with
  | nil => rfl
  | cons row rows =>
      obtain ⟨c, row, rfl⟩ := List.exists_cons_of_ne_nil (filled row (by simp))
      cases rows <;> rfl

/-- Behind a row of nonempty lines the first empty line is the one written there. -/
theorem splitAtEmptyLine_joinWith {rows : List (List Char)} (nonempty : rows ≠ [])
    (filled : ∀ row ∈ rows, row ≠ []) (single : ∀ row ∈ rows, '\n' ∉ row) (rest : List Char) :
    splitAtEmptyLine (joinWith ['\n'] rows ++ '\n' :: '\n' :: rest) =
      some (joinWith ['\n'] rows, rest) := by
  fun_induction joinWith ['\n'] rows with
  | case1 => exact absurd rfl nonempty
  | case2 row =>
      rw [splitAtEmptyLine_append (single row (by simp)), splitAtEmptyLine]
      simp
  | case3 row rows hne ih =>
      have filled' : ∀ other ∈ rows, other ≠ [] := fun other hother =>
        filled other (List.mem_cons_of_mem _ hother)
      have single' : ∀ other ∈ rows, '\n' ∉ other := fun other hother =>
        single other (List.mem_cons_of_mem _ hother)
      -- The line feed behind a row is followed by the first character of the next one.
      have inside : (joinWith ['\n'] rows ++ '\n' :: '\n' :: rest).head? ≠ some '\n' := by
        obtain ⟨next, others, rfl⟩ := List.exists_cons_of_ne_nil hne
        obtain ⟨c, next, rfl⟩ := List.exists_cons_of_ne_nil (filled' next (by simp))
        have hc : c ≠ '\n' := fun heq => single' (c :: next) (by simp) (by simp [heq])
        rw [List.head?_append, head?_joinWith filled']
        simpa using hc
      rw [List.append_assoc, List.append_assoc, splitAtEmptyLine_append (single row (by simp)),
        List.singleton_append, splitAtEmptyLine_cons fun _ => inside, ih hne filled' single']
      simp

/-- The text is `before`, two line feeds in a row and `after`, and no two line feeds in a row begin
any earlier. -/
structure HasEmptyLine (text before after : List Char) : Prop where
  parts : text = before ++ '\n' :: '\n' :: after
  first : ¬ ['\n', '\n'] <:+: before ++ ['\n']

/-- Two line feeds in a row begin a text or come later in it. -/
theorem lineFeeds_infix_cons_iff {c : Char} {text : List Char} :
    ['\n', '\n'] <:+: c :: text ↔
      (c = '\n' ∧ text.head? = some '\n') ∨ ['\n', '\n'] <:+: text := by
  have hhead : ['\n'] <+: text ↔ text.head? = some '\n' := by
    cases text <;> simp [List.cons_prefix_cons, eq_comm]
  rw [List.infix_cons_iff, List.cons_prefix_cons, hhead, @eq_comm _ '\n' c]

/-- A text that is not of the form that `splitAtEmptyLine` looks for does not begin with two line
feeds. -/
theorem not_beginsWithLineFeeds {c : Char} {rest : List Char}
    (other : ∀ behind, c = '\n' → rest = '\n' :: behind → False) :
    ¬ (c = '\n' ∧ rest.head? = some '\n') := by
  rintro ⟨hc, hrest⟩
  obtain ⟨behind, heq⟩ := List.head?_eq_some_iff.1 hrest
  exact other behind hc heq

/-- A text that is not divided has no two line feeds in a row. -/
theorem splitAtEmptyLine_eq_none_iff {text : List Char} :
    splitAtEmptyLine text = none ↔ ¬ ['\n', '\n'] <:+: text := by
  fun_induction splitAtEmptyLine text with
  | case1 => simp
  | case2 rest => simp [lineFeeds_infix_cons_iff]
  | case3 c rest hother ih =>
      rw [Option.map_eq_none_iff, ih, lineFeeds_infix_cons_iff,
        or_iff_right (not_beginsWithLineFeeds hother)]

/-- A text is divided where two line feeds in a row begin first. -/
theorem splitAtEmptyLine_eq_some_iff {text before after : List Char} :
    splitAtEmptyLine text = some (before, after) ↔ HasEmptyLine text before after := by
  have hhead (before after : List Char) :
      (before ++ '\n' :: '\n' :: after).head? = (before ++ ['\n']).head? := by
    cases before <;> rfl
  constructor
  · intro hsplit
    refine ⟨eq_append_of_splitAtEmptyLine hsplit, ?_⟩
    fun_induction splitAtEmptyLine text generalizing before after with
    | case1 => cases hsplit
    | case2 rest =>
        cases hsplit
        decide
    | case3 c rest hother ih =>
        obtain ⟨⟨first, second⟩, hrest, heq⟩ := Option.map_eq_some_iff.1 hsplit
        cases heq
        rw [List.cons_append, lineFeeds_infix_cons_iff, ← hhead first after,
          ← eq_append_of_splitAtEmptyLine hrest, not_or]
        exact ⟨not_beginsWithLineFeeds hother, ih hrest⟩
  · rintro ⟨rfl, first⟩
    induction before with
    | nil => rfl
    | cons c before ih =>
        rw [List.cons_append, lineFeeds_infix_cons_iff, not_or] at first
        have inside : c = '\n' → (before ++ '\n' :: '\n' :: after).head? ≠ some '\n' :=
          fun hc hfeed => first.1 ⟨hc, hhead before after ▸ hfeed⟩
        rw [List.cons_append, splitAtEmptyLine_cons inside, ih first.2, Option.map_some]

end MailMerge.Text
