/-
# File names are read back

The file name of an attachment is a parameter of its disposition. A name that does not fit a line
stands in several sections, which a reader joins in order, and a section in percent form stands for
bytes. Whatever characters a name has, and however it is written, a reader gets exactly this name.
-/

import MailMerge.Mail.Disposition
import MailMerge.Proofs.Mail.Folding
import MailMerge.Proofs.Mail.Transfer
import MailMerge.Proofs.Mail.Unfolding
import MailMerge.Proofs.Text.Numeral

namespace MailMerge.Mail

open MailMerge.Text

/-! ## Reading parameters -/

/-- A parameter: its name and its value. -/
abbrev Parameter := List Char × List Char

/-- Where a reader of parameters stands. -/
inductive ParameterPlace where
  /-- Before the name of a parameter. -/
  | gap
  /-- In a name, of which a part was read. -/
  | naming (read : List Char)
  /-- At the first character of a value. -/
  | start (name : List Char)
  /-- In a value without quotes. -/
  | bare (name value : List Char)
  /-- In a value in quotes. -/
  | quoted (name value : List Char)
  /-- Behind a backslash in quotes. -/
  | escaped (name value : List Char)
  /-- Behind a value in quotes. -/
  | behind

namespace ParameterPlace

/-- Read a character: the parameter that it ends, and the place behind it. -/
def step (c : Char) : ParameterPlace → Option Parameter × ParameterPlace
  | gap => if c = ' ' then (none, gap) else (none, naming [c])
  | naming read => if c = '=' then (none, start read) else (none, naming (read ++ [c]))
  | start name =>
    if c = '"' then (none, quoted name [])
    else if c = ';' then (some (name, []), gap) else (none, bare name [c])
  | bare name value =>
    if c = ';' then (some (name, value), gap) else (none, bare name (value ++ [c]))
  | quoted name value =>
    if c = '"' then (some (name, value), behind)
    else if c = '\\' then (none, escaped name value) else (none, quoted name (value ++ [c]))
  | escaped name value => (none, quoted name (value ++ [c]))
  | behind => if c = ';' then (none, gap) else (none, behind)

/-- The parameters of a text, from a place on. -/
def parameters : ParameterPlace → List Char → List Parameter
  | bare name value, [] => [(name, value)]
  | _, [] => []
  | place, c :: rest => (place.step c).1.toList ++ (place.step c).2.parameters rest

end ParameterPlace

/-- The bytes of a text in percent form. A percent sign stands before the two hexadecimal digits of
a byte; every other character stands for its own bytes. -/
def percentDecode : List Char → Option (List UInt8)
  | [] => some []
  | '%' :: high :: low :: rest => do
    let high ← hexValue? high
    let low ← hexValue? low
    let bytes ← percentDecode rest
    return UInt8.ofNat (high * 16 + low) :: bytes
  | '%' :: _ => none
  | c :: rest => (percentDecode rest).map (encode [c] ++ ·)

/-- The name of a section of a file name. -/
def sectionName (index : Nat) : List Char :=
  "filename*".toList ++ decimalDigits index

/-- The character set that the first section in percent form names, with an empty language. -/
def charsetMark : List Char :=
  "utf-8''".toList

/-- The bytes of the sections of a file name, which must be there in order. A star at the end of
its name marks a section in percent form. -/
def sectionBytes (index : Nat) : List Parameter → Option (List UInt8)
  | [] => some []
  | (name, value) :: others => do
    let bytes ←
      if name = sectionName index then some (encode value)
      else if name = sectionName index ++ ['*'] then
        if index = 0 then (charsetMark.isPrefixOf? value).bind percentDecode
        else percentDecode value
      else none
    let rest ← sectionBytes (index + 1) others
    return bytes ++ rest

/-- The file name that parameters give, as a whole or in sections. -/
def nameInParameters? : List Parameter → Option (List Char)
  | [] => none
  | (name, value) :: others =>
    if name = "filename".toList then some value
    else (sectionBytes 0 ((name, value) :: others)).bind decode?

/-- The file name in a disposition, of which the parameters stand behind a semicolon. -/
def dispositionName? (text : List Char) : Option (List Char) :=
  nameInParameters? (ParameterPlace.gap.parameters ((text.dropWhile (· != ';')).drop 1))

/-! ## Parameters that were written -/

namespace ParameterPlace

/-- A name goes up to its equals sign. -/
theorem parameters_naming {read more : List Char} (plain : '=' ∉ more) (rest : List Char) :
    (naming read).parameters (more ++ '=' :: rest) = (start (read ++ more)).parameters rest := by
  induction more generalizing read with
  | nil => rw [List.append_nil]; rfl
  | cons c more ih =>
      rw [List.mem_cons, not_or] at plain
      have hstep : (naming read).step c = (none, naming (read ++ [c])) := if_neg (Ne.symm plain.1)
      rw [List.cons_append, parameters, hstep, ih plain.2, List.append_assoc]
      rfl

theorem parameters_gap {name : List Char} (filled : name ≠ []) (plain : '=' ∉ name)
    (solid : ' ' ∉ name) (rest : List Char) :
    gap.parameters (' ' :: (name ++ '=' :: rest)) = (start name).parameters rest := by
  obtain ⟨c, more, rfl⟩ := List.exists_cons_of_ne_nil filled
  rw [List.mem_cons, not_or] at plain solid
  have hstep : gap.step c = (none, naming [c]) := if_neg (Ne.symm solid.1)
  show gap.parameters (c :: (more ++ '=' :: rest)) = _
  rw [parameters, hstep]
  exact parameters_naming plain.2 rest

/-- A value in quotes goes up to the quote that is not escaped. -/
theorem parameters_quoted (name value read rest : List Char) :
    (quoted name read).parameters (escapeQuotes value ++ '"' :: rest) =
      (name, read ++ value) :: behind.parameters rest := by
  induction value generalizing read with
  | nil => rw [List.append_nil]; rfl
  | cons c value ih =>
      have hcons : escapeQuotes (c :: value) =
          (if c = '"' ∨ c = '\\' then ['\\', c] else [c]) ++ escapeQuotes value := rfl
      have hread := ih (read ++ [c])
      rw [List.append_assoc, List.singleton_append] at hread
      rw [hcons, ← hread]
      split
      · rfl
      · next hplain =>
        rw [not_or] at hplain
        have hstep : (quoted name read).step c = (none, quoted name (read ++ [c])) :=
          (if_neg hplain.1).trans (if_neg hplain.2)
        rw [List.singleton_append, List.cons_append, parameters, hstep]
        rfl

theorem parameters_quoteName (name value rest : List Char) :
    (start name).parameters (quoteName value ++ rest) =
      (name, value) :: behind.parameters rest := by
  have hquoted := parameters_quoted name value [] rest
  rw [List.nil_append] at hquoted
  rw [quoteName, List.cons_append, List.cons_append, List.append_assoc, List.singleton_append,
    ← hquoted]
  rfl

/-- A value without quotes goes on up to a semicolon. -/
theorem parameters_bare {name value more : List Char} (plain : ';' ∉ more) (rest : List Char) :
    (bare name value).parameters (more ++ rest) =
      (bare name (value ++ more)).parameters rest := by
  induction more generalizing value with
  | nil => rw [List.append_nil, List.nil_append]
  | cons c more ih =>
      rw [List.mem_cons, not_or] at plain
      have hstep : (bare name value).step c =
          (none, bare name (value ++ [c])) := if_neg (Ne.symm plain.1)
      rw [List.cons_append, parameters, hstep]
      show (bare name (value ++ [c])).parameters (more ++ rest) = _
      rw [ih plain.2, List.append_assoc, List.singleton_append]

end ParameterPlace

/-! ## Percent form -/

/-- A character of a text in percent form. -/
def isPercentText (c : Char) : Bool :=
  isAsciiAlphanumeric c || c == '-' || c == '_' || c == '.' || c == '%'

theorem isPercentText_hexDigitUpper {value : Nat} (small : value < 16) :
    isPercentText (hexDigitUpper value) := by
  have hall : ∀ value < 16, isPercentText (hexDigitUpper value) := by decide
  exact hall value small

theorem isPercentText_of_mem_percentChar {c d : Char} (hd : d ∈ percentChar c) :
    isPercentText d := by
  rw [percentChar] at hd
  split at hd
  · next hplain =>
    rw [List.mem_singleton.1 hd]
    simp only [isPercentText, Bool.or_eq_true, beq_iff_eq]
    tauto
  · obtain ⟨byte, -, hd⟩ := List.mem_flatMap.1 hd
    have hbyte := byte.toNat_lt
    rw [hexPairUpper] at hd
    rcases List.mem_cons.1 hd with rfl | hd
    · rfl
    · rcases List.mem_pair.1 hd with rfl | rfl
      · exact isPercentText_hexDigitUpper (by omega)
      · exact isPercentText_hexDigitUpper (by omega)

/-- The two digits of a byte behind a percent sign stand for it. -/
theorem givesBytes_percentByte (byte : UInt8) :
    GivesBytes percentDecode ('%' :: hexPairUpper byte) [byte] := by
  obtain ⟨hhigh, hlow⟩ := hexValue?_halves byte
  intro rest
  have hread : percentDecode ('%' :: hexPairUpper byte ++ rest) =
      (percentDecode rest).bind fun bytes =>
        some (UInt8.ofNat (byte.toNat / 16 * 16 + byte.toNat % 16) :: bytes) := by
    rw [hexPairUpper, List.cons_append, List.cons_append, List.cons_append, List.nil_append,
      percentDecode, hhigh, hlow]
    rfl
  rw [hread, Nat.div_add_mod', UInt8.ofNat_toNat]
  exact Option.map_eq_bind.symm

theorem givesBytes_percentBytes (bytes : List UInt8) :
    GivesBytes percentDecode (bytes.flatMap fun byte => '%' :: hexPairUpper byte) bytes := by
  induction bytes with
  | nil => exact .nil
  | cons byte bytes ih => exact (givesBytes_percentByte byte).append ih

/-- A character in percent form stands for its bytes. -/
theorem givesBytes_percentChar (c : Char) :
    GivesBytes percentDecode (percentChar c) (encode [c]) := by
  rw [percentChar]
  split
  · next hplain =>
    have hpercent : c ≠ '%' := by
      rintro rfl
      exact absurd hplain (by decide)
    intro rest
    rw [List.singleton_append, percentDecode]
    · intro _ _ _ heq
      exact absurd heq hpercent
    · exact hpercent
  · exact givesBytes_percentBytes (encode [c])

theorem percentChar_ne_nil (c : Char) : percentChar c ≠ [] := by
  intro hnil
  have hread := (givesBytes_percentChar c).decode_eq rfl
  rw [hnil] at hread
  exact encode_ne_nil (List.cons_ne_nil c []) (Option.some.inj hread).symm

/-! ## Sections -/

theorem unbroken_sectionName (index : Nat) : Unbroken (sectionName index) :=
  unbroken_append.2 ⟨by decide, unbroken_decimalDigits index⟩

theorem sectionName_ne_nil (index : Nat) : sectionName index ≠ [] :=
  List.append_ne_nil_of_left_ne_nil (by decide) _

/-- A character outside the common name and the digits is in no name of a section. -/
theorem not_mem_sectionName {c : Char} (outside : c ∉ "filename*".toList)
    (noDigit : isAsciiDigit c = false) (index : Nat) : c ∉ sectionName index := by
  apply List.not_mem_append outside
  intro hmem
  rw [isAsciiDigit_of_mem_decimalDigits hmem] at noDigit
  cases noDigit

theorem continuation_eq (index : Nat) (mark : String) :
    continuation index mark = ' ' :: (sectionName index ++ mark.toList) := by
  have hspace : " filename*".toList = ' ' :: "filename*".toList := rfl
  exact congrArg (· ++ decimalDigits index ++ mark.toList) hspace

/-- A line that continues a file name is joined to the line before by a space. -/
theorem unfolded_continuation (index : Nat) {mark : String} (unbroken : Unbroken mark.toList)
    (rest : List Char) :
    unfolded (lineBreak ++ continuation index mark ++ rest) =
      ' ' :: (sectionName index ++ mark.toList ++ unfolded rest) := by
  have hjoined : unfolded (lineBreak ++ ' ' :: (sectionName index ++ mark.toList ++ rest)) =
      ' ' :: unfolded (sectionName index ++ mark.toList ++ rest) := by
    rw [lineBreak, List.cons_append, List.cons_append, List.nil_append, unfolded]
  rw [continuation_eq, List.append_assoc, List.cons_append, hjoined, unfolded_append
    (unbroken_append.2 ⟨unbroken_sectionName index, unbroken⟩)]

theorem isFolded_continuation (index : Nat) {mark : String} (unbroken : Unbroken mark.toList)
    {rest : List Char} (folded : IsFolded rest) :
    IsFolded (lineBreak ++ continuation index mark ++ rest) := by
  have hline : Unbroken (sectionName index ++ mark.toList) :=
    unbroken_append.2 ⟨unbroken_sectionName index, unbroken⟩
  rw [continuation_eq, List.append_assoc]
  exact .fold ((isFolded_of_unbroken hline).append folded)

namespace ParameterPlace

/-- The name of a section is read up to its equals sign. -/
theorem parameters_sectionName (index : Nat) {star : List Char} (plain : '=' ∉ star)
    (solid : ' ' ∉ star) (rest : List Char) :
    gap.parameters (' ' :: (sectionName index ++ star ++ '=' :: rest)) =
      (start (sectionName index ++ star)).parameters rest := by
  have hequals : '=' ∉ sectionName index := not_mem_sectionName (by decide) (by decide) index
  have hspace : ' ' ∉ sectionName index := not_mem_sectionName (by decide) (by decide) index
  apply parameters_gap
  · exact List.append_ne_nil_of_left_ne_nil (sectionName_ne_nil index) star
  · exact List.not_mem_append hequals plain
  · exact List.not_mem_append hspace solid

/-- A value that begins with no quote goes without quotes. -/
theorem parameters_start {name text : List Char} (filled : text ≠ []) (unquoted : '"' ∉ text)
    (unended : ';' ∉ text) (rest : List Char) :
    (start name).parameters (text ++ rest) = (bare name text).parameters rest := by
  obtain ⟨c, text, rfl⟩ := List.exists_cons_of_ne_nil filled
  rw [List.mem_cons, not_or] at unquoted unended
  have hstep : (start name).step c = (none, bare name [c]) :=
    (if_neg (Ne.symm unquoted.1)).trans (if_neg (Ne.symm unended.1))
  rw [List.cons_append, parameters, hstep]
  exact parameters_bare unended.2 rest

end ParameterPlace

open ParameterPlace

/-! ### In quotes -/

theorem unbroken_quoteName {name : List Char} (unbroken : Unbroken name) :
    Unbroken (quoteName name) := by
  have hquote : Unbroken ['"'] := by decide
  rw [quoteName, ← List.singleton_append]
  exact unbroken_append.2
    ⟨unbroken_append.2 ⟨hquote, FieldWriter.unbroken_escapeQuotes unbroken⟩, hquote⟩

/-- A section in quotes gives its bytes and those of the sections behind it. -/
theorem sectionBytes_quoted (index : Nat) (value : List Char) (others : List Parameter) :
    sectionBytes index ((sectionName index, value) :: others) =
      (sectionBytes (index + 1) others).map (encode value ++ ·) := by
  rw [sectionBytes, if_pos rfl]
  exact Option.map_eq_bind.symm

/-- A line in quotes is a section of the name. -/
theorem parameters_quotedSection (index : Nat) {name : List Char} (unbroken : Unbroken name)
    (rest : List Char) :
    gap.parameters (unfolded (lineBreak ++ continuation index "=" ++ quoteName name ++ rest)) =
      (sectionName index, name) :: behind.parameters (unfolded rest) := by
  have hequals : "=".toList = '=' :: [] := rfl
  have hname (value : List Char) : gap.parameters (' ' :: (sectionName index ++ '=' :: value)) =
      (start (sectionName index)).parameters value := by
    have hstar := parameters_sectionName index List.not_mem_nil List.not_mem_nil value
    rwa [List.append_nil] at hstar
  rw [List.append_assoc, unfolded_continuation index (by decide),
    unfolded_append (unbroken_quoteName unbroken), hequals, List.append_assoc,
    List.singleton_append, hname, parameters_quoteName]

/-- The sections of a name in quotes hold its bytes. -/
theorem sectionBytes_continueQuoted (index : Nat) {name : List Char} (unbroken : Unbroken name) :
    sectionBytes index (gap.parameters (unfolded (continueQuoted index name))) =
      some (encode name) := by
  fun_induction continueQuoted index name with
  | case1 index name opening count short =>
      have hread := parameters_quotedSection index unbroken []
      rw [List.append_nil] at hread
      rw [hread, sectionBytes_quoted]
      show some (encode name ++ []) = _
      rw [List.append_nil]
  | case2 index name opening count long ih =>
      have hread := parameters_quotedSection index
        (unbroken.of_subset (List.take_subset count name))
        (';' :: continueQuoted (index + 1) (name.drop count))
      have hbehind (rest : List Char) : behind.parameters (unfolded (';' :: rest)) =
          gap.parameters (unfolded rest) := by
        rw [unfolded_cons (by decide)]
        rfl
      rw [hread, hbehind, sectionBytes_quoted,
        ih (unbroken.of_subset (List.drop_subset count name)), Option.map_some, encode, encode,
        ← List.flatMap_append, List.take_append_drop]
      rfl

/-! ### In percent form -/

/-- A section in percent form behind the first gives its bytes and those of the sections behind
it. -/
theorem sectionBytes_percent (index : Nat) (value : List Char) (others : List Parameter) :
    sectionBytes (index + 1) ((sectionName (index + 1) ++ ['*'], value) :: others) =
      (percentDecode value).bind fun bytes =>
        (sectionBytes (index + 2) others).map (bytes ++ ·) := by
  have hstar : sectionName (index + 1) ++ ['*'] ≠ sectionName (index + 1) := by simp
  rw [sectionBytes, if_neg hstar, if_pos rfl, if_neg (Nat.succ_ne_zero index)]
  congr 1
  funext bytes
  exact Option.map_eq_bind.symm

theorem not_mem_percentChar {d : Char} (outside : isPercentText d = false) (c : Char) :
    d ∉ percentChar c := by
  intro hmem
  rw [isPercentText_of_mem_percentChar hmem] at outside
  cases outside

theorem unbroken_percentChar (c : Char) : Unbroken (percentChar c) :=
  ⟨not_mem_percentChar (by decide) c, not_mem_percentChar (by decide) c⟩

/-- A line in percent form is a section of the name with a star. -/
theorem parameters_starredSection (index : Nat) {mark : String} {opening : List Char}
    (hmark : mark.toList = ['*'] ++ '=' :: opening) (unbroken : Unbroken mark.toList)
    (rest : List Char) :
    gap.parameters (unfolded (lineBreak ++ continuation index mark ++ rest)) =
      (start (sectionName index ++ ['*'])).parameters (opening ++ unfolded rest) := by
  rw [unfolded_continuation index unbroken, hmark, ← List.append_assoc, List.append_assoc,
    List.cons_append, parameters_sectionName index (by decide) (by decide)]

/-- A name in percent form gives its bytes, whatever was read of the section before. -/
theorem exists_parameters_writePercent (index length : Nat) (text name value : List Char) :
    ∃ more others bytes bytes',
      (bare name value).parameters (unfolded (writePercent index length text)) =
        (name, value ++ more) :: others ∧
      GivesBytes percentDecode more bytes ∧ sectionBytes (index + 1) others = some bytes' ∧
      bytes ++ bytes' = encode text := by
  -- What was read of a section grows by every character, and a new section starts from one.
  fun_induction writePercent index length text generalizing name value with
  | case1 => exact ⟨[], [], [], [], by simp [unfolded, parameters], .nil, rfl, rfl⟩
  | case2 index length c rest percent short ih =>
      have hsemicolon : ';' ∉ percent := not_mem_percentChar (by decide) c
      obtain ⟨more, others, bytes, bytes', hread, hmore, hothers, hbytes⟩ :=
        ih name (value ++ percent)
      refine ⟨percent ++ more, others, encode [c] ++ bytes, bytes', ?_, ?_, hothers, ?_⟩
      · rw [unfolded_append (unbroken_percentChar c), parameters_bare hsemicolon, hread,
          List.append_assoc]
      · exact (givesBytes_percentChar c).append hmore
      · rw [List.append_assoc, hbytes, ← encode_cons]
  | case3 index length c rest percent long opening ih =>
      have hended (text : List Char) : (bare name value).parameters (unfolded (';' :: text)) =
          (name, value ++ []) :: gap.parameters (unfolded text) := by
        rw [unfolded_cons (by decide), List.append_nil]
        rfl
      obtain ⟨more, others, bytes, bytes', hread, hmore, hothers, hbytes⟩ :=
        ih (sectionName (index + 1) ++ ['*']) percent
      refine ⟨[], (sectionName (index + 1) ++ ['*'], percent ++ more) :: others, [],
        encode [c] ++ bytes ++ bytes', ?_, .nil, ?_, ?_⟩
      · have hmark : "*=".toList = ['*'] ++ '=' :: [] := rfl
        have hsection := parameters_starredSection (index + 1) hmark (by decide)
          (percent ++ writePercent (index + 1) (opening.length + percent.length) rest)
        rw [List.nil_append, unfolded_append (unbroken_percentChar c),
          parameters_start (percentChar_ne_nil c) (not_mem_percentChar (by decide) c)
            (not_mem_percentChar (by decide) c), hread, ← List.append_assoc] at hsection
        rw [List.cons_append, List.cons_append, List.cons_append, hended, hsection]
      · have hpercent := ((givesBytes_percentChar c).append hmore).decode_eq rfl
        rw [sectionBytes_percent, hpercent, hothers]
        rfl
      · rw [List.nil_append, List.append_assoc, hbytes, ← encode_cons]

/-- The sections of a name in percent form hold its bytes. -/
theorem sectionBytes_continuePercent (name : List Char) :
    sectionBytes 0 (gap.parameters (unfolded (continuePercent name))) = some (encode name) := by
  have hmark : "*=utf-8''".toList = ['*'] ++ '=' :: charsetMark := rfl
  have hname : sectionName 0 ++ ['*'] ≠ sectionName 0 := by simp
  obtain ⟨more, others, bytes, bytes', hread, hmore, hothers, hbytes⟩ :=
    exists_parameters_writePercent 0 (continuation 0 "*=utf-8''").length name
      (sectionName 0 ++ ['*']) charsetMark
  have hcharset : charsetMark.isPrefixOf? (charsetMark ++ more) = some more :=
    List.isPrefixOf?_eq_some_iff_append_eq.2 rfl
  rw [continuePercent, parameters_starredSection 0 hmark (by decide),
    parameters_start (by decide) (by decide) (by decide), hread, sectionBytes, if_neg hname,
    if_pos rfl, if_pos rfl, hcharset, hothers, Option.bind_some, hmore.decode_eq rfl]
  exact congrArg some hbytes

/-! ## Dispositions -/

/-- A name in sections is read from their bytes. -/
theorem nameInParameters?_of_sectionBytes {parameters : List Parameter} {name : List Char}
    (filled : name ≠ []) (sections : sectionBytes 0 parameters = some (encode name)) :
    nameInParameters? parameters = some name := by
  cases parameters with
  | nil => exact absurd (Option.some.inj sections).symm (encode_ne_nil filled)
  | cons parameter others =>
      obtain ⟨given, value⟩ := parameter
      have hname : given ≠ "filename".toList := by
        rintro rfl
        have hfirst : "filename".toList ≠ sectionName 0 := by decide
        have hstarred : "filename".toList ≠ sectionName 0 ++ ['*'] := by decide
        rw [sectionBytes, if_neg hfirst, if_neg hstarred] at sections
        cases sections
      rw [nameInParameters?, if_neg hname, sections]
      exact decode?_encode name

theorem unbroken_of_printable {name : List Char} (printable : name.all isPrintableAscii) :
    Unbroken name :=
  unbroken_of_forall (by decide) (List.all_eq_true.1 printable)

/-- The parameters stand behind the kind of disposition. -/
theorem drop_dropWhile_kind (rest : List Char) :
    (("attachment;".toList ++ rest).dropWhile (· != ';')).drop 1 = rest := by
  have hkind : "attachment;".toList = "attachment".toList ++ [';'] := rfl
  have hplain : "attachment".toList.all (· != ';') = true := by decide
  rw [hkind, List.append_assoc, List.dropWhile_append_of_pos (List.all_eq_true.1 hplain)]
  rfl

/-- A name on one line is a parameter of its own. -/
theorem parameters_quotedLine (name : List Char) :
    gap.parameters (" filename=".toList ++ quoteName name) = [("filename".toList, name)] := by
  have hline : " filename=".toList ++ quoteName name =
      ' ' :: ("filename".toList ++ '=' :: quoteName name) := rfl
  have hvalue := parameters_quoteName "filename".toList name []
  rw [List.append_nil] at hvalue
  rw [hline, parameters_gap (by decide) (by decide) (by decide), hvalue]
  rfl

/-- A reader gets exactly the name that was written. -/
theorem dispositionName?_writeDisposition (name : List Char) :
    dispositionName? (unfolded (writeDisposition name)) = some name := by
  have hkind : Unbroken "attachment;".toList := by decide
  unfold writeDisposition dispositionName?
  rw [unfolded_append hkind, drop_dropWhile_kind]
  split
  · next printable =>
    have unbroken : Unbroken name := unbroken_of_printable printable
    split
    · have hline : Unbroken (" filename=".toList ++ quoteName name) :=
        unbroken_append.2 ⟨by decide, unbroken_quoteName unbroken⟩
      rw [unfolded_eq_self hline, parameters_quotedLine, nameInParameters?, if_pos rfl]
    · next long =>
      apply nameInParameters?_of_sectionBytes
      · rintro rfl
        exact long (by decide)
      · exact sectionBytes_continueQuoted 0 unbroken
  · next unprintable =>
    apply nameInParameters?_of_sectionBytes
    · rintro rfl
      exact unprintable rfl
    · exact sectionBytes_continuePercent name

theorem isFolded_continueQuoted (index : Nat) {name : List Char} (unbroken : Unbroken name) :
    IsFolded (continueQuoted index name) := by
  fun_induction continueQuoted index name with
  | case1 index name opening count short =>
      exact isFolded_continuation index (by decide)
        (isFolded_of_unbroken (unbroken_quoteName unbroken))
  | case2 index name opening count long ih =>
      have htake : Unbroken (name.take count) := unbroken.of_subset (List.take_subset count name)
      have hrest := ih (unbroken.of_subset (List.drop_subset count name))
      have hline := (isFolded_of_unbroken (unbroken_quoteName htake)).append
        (.cons (by decide) hrest : IsFolded (';' :: _))
      rw [List.append_assoc]
      exact isFolded_continuation index (by decide) hline

theorem isFolded_writePercent (index length : Nat) (text : List Char) :
    IsFolded (writePercent index length text) := by
  fun_induction writePercent index length text with
  | case1 => exact .nil
  | case2 index length c rest percent short ih =>
      exact (isFolded_of_unbroken (unbroken_percentChar c)).append ih
  | case3 index length c rest percent long opening ih =>
      have hline := isFolded_continuation (index + 1) (by decide : Unbroken "*=".toList)
        ((isFolded_of_unbroken (unbroken_percentChar c)).append ih)
      rw [← List.append_assoc] at hline
      exact .cons (by decide) hline

/-- A disposition is written folded. -/
theorem isFolded_writeDisposition (name : List Char) : IsFolded (writeDisposition name) := by
  have hkind : Unbroken "attachment;".toList := by decide
  refine (isFolded_of_unbroken hkind).append ?_
  split
  · next printable =>
    have unbroken : Unbroken name := unbroken_of_printable printable
    split
    · have hline : Unbroken " filename=".toList := by decide
      exact isFolded_of_unbroken (unbroken_append.2 ⟨hline, unbroken_quoteName unbroken⟩)
    · exact isFolded_continueQuoted 0 unbroken
  · have hline := isFolded_continuation 0 (by decide : Unbroken "*=utf-8''".toList)
      (isFolded_writePercent 0 (continuation 0 "*=utf-8''").length name)
    exact hline

end MailMerge.Mail
