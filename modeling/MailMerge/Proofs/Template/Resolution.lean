/-
# What is read and what is at hand

Bytes are a template, or the path of one, by a single test on the bytes themselves: they are a
template when the byte of a line feed is among them. This holds of all bytes, malformed ones
included, since decoding keeps line feeds and makes none. What a file holds is the template
to the byte, and is never taken for another path.
-/

import MailMerge.Proofs.Stage
import MailMerge.Proofs.Text.LossyReading
import MailMerge.Template.Input

namespace MailMerge.Template

open MailMerge.Host MailMerge.Stage MailMerge.Text

/-- Resolving an input reads the file at a path: it leaves the record of loading this file, and it
ends in every file system as reading this file does. -/
structure Input.ReadsFile (input : Input) (path : String) : Prop where
  log : input.source.log = [.of .debug "Loading template file" [("path", path)]]
  result : ∀ files : FileSystem,
    input.resolve files = (files.readText path).mapError fun fault => ⟨path, fault⟩

/-- A file is read as the text whose encoding it holds. -/
theorem readText_eq_ok_iff {files : FileSystem} {path text : String} :
    files.readText path = .ok text ↔ files.readBytes path = .ok (encode text.toList) := by
  rw [FileSystem.readText, bind_eq_ok_iff]
  constructor
  · rintro ⟨content, hcontent, htext⟩
    cases hdecoded : decode? content with
    | none =>
        rw [hdecoded] at htext
        cases htext
    | some chars =>
        rw [hdecoded] at htext
        cases htext
        rw [String.toList_ofList, hcontent, decode?_eq_some_iff_eq_encode.1 hdecoded]
  · intro hcontent
    refine ⟨_, hcontent, ?_⟩
    rw [decode?_encode]
    exact congrArg Except.ok String.ofList_toList

theorem readsFile_of_source {input : Input} {path : String} (hsource : input.source = .file path) :
    input.ReadsFile path := by
  constructor
  · rw [hsource]
    rfl
  · intro files
    rw [Input.resolve, hsource]
    rfl

namespace Input.ReadsFile

variable {input : Input} {path : String}

/-- What was read is the template, to the byte. -/
theorem resolve_eq_ok_iff (reads : input.ReadsFile path) (files : FileSystem) (text : String) :
    input.resolve files = .ok text ↔ files.readBytes path = .ok (encode text.toList) := by
  rw [reads.result, mapError_eq_ok_iff, readText_eq_ok_iff]

/-- No other file has a part in the result. -/
theorem resolve_congr (reads : input.ReadsFile path) {files others : FileSystem}
    (agree : others.readBytes path = files.readBytes path) :
    input.resolve others = input.resolve files := by
  rw [reads.result, reads.result, FileSystem.readText, FileSystem.readText, agree]

end Input.ReadsFile

theorem isPathLike_decodeLossy_iff {bytes : List UInt8} :
    isPathLike (decodeLossy bytes) ↔ 0x0A ∉ bytes := by
  rw [isPathLike, Bool.not_eq_true', List.contains_eq_mem, decide_eq_false_iff_not,
    lineFeed_mem_decodeLossy_iff]

theorem source_of_lineFeed_mem {bytes : List UInt8} (hmem : 0x0A ∈ bytes) :
    (Input.bytes bytes).source = .inline (String.ofList (decodeLossy bytes)) := by
  rw [Input.source, Source.ofText, if_neg]
  rw [isPathLike_decodeLossy_iff]
  exact fun hnot => hnot hmem

theorem source_of_lineFeed_not_mem {bytes : List UInt8} (hnot : 0x0A ∉ bytes) :
    (Input.bytes bytes).source = .file (String.ofList (decodeLossy bytes)) := by
  rw [Input.source, Source.ofText, if_pos (isPathLike_decodeLossy_iff.2 hnot)]

/-- Bytes name a file exactly when the byte of a line feed is not among them; the path is then
their text. Else this text is the template, in every file system, and it is the text whose encoding
the bytes are, if they are one. A file that is read is the template as it stands, and no other file
matters. -/
theorem resolve_bytes (bytes : List UInt8) :
    (∀ text, IsLossyText bytes text ↔ text = decodeLossy bytes) ∧
      ((∃ path, (Input.bytes bytes).ReadsFile path) ↔ 0x0A ∉ bytes) ∧
      (0x0A ∈ bytes →
        (∀ files, (Input.bytes bytes).resolve files = .ok (String.ofList (decodeLossy bytes))) ∧
          ∀ text : String, bytes = encode text.toList →
            ∀ files, (Input.bytes bytes).resolve files = .ok text) ∧
      (0x0A ∉ bytes → ∀ files, (Input.bytes bytes).resolve files =
        (Input.path (String.ofList (decodeLossy bytes))).resolve files) ∧
      ∀ input path, Input.ReadsFile input path →
        (∀ files text, input.resolve files = .ok text ↔
          files.readBytes path = .ok (encode text.toList)) ∧
        ∀ files others, others.readBytes path = files.readBytes path →
          input.resolve others = input.resolve files := by
  have inline (hmem : 0x0A ∈ bytes) (files : FileSystem) :
      (Input.bytes bytes).resolve files = .ok (String.ofList (decodeLossy bytes)) := by
    rw [Input.resolve, source_of_lineFeed_mem hmem]
    rfl
  refine ⟨fun text => isLossyText_iff, ?_, fun hmem => ⟨inline hmem, ?_⟩, ?_, ?_⟩
  · constructor
    · rintro ⟨path, reads⟩ hmem
      have hlog := reads.log
      rw [source_of_lineFeed_mem hmem] at hlog
      cases hlog
    · intro hnot
      exact ⟨_, readsFile_of_source (source_of_lineFeed_not_mem hnot)⟩
  · rintro text rfl files
    rw [inline hmem, decodeLossy_encode, String.ofList_toList]
  · intro hnot files
    rw [Input.resolve, source_of_lineFeed_not_mem hnot]
    rfl
  · intro input path reads
    exact ⟨reads.resolve_eq_ok_iff, fun files others agree => reads.resolve_congr agree⟩

/-- Bytes that begin a character of three bytes and break off before a line feed. -/
def cutShortBytes : List UInt8 := [0x54, 0xE2, 0x82, 0x0A]

/-- A file that holds the name of another. -/
def forwardingFiles : FileSystem :=
  (FileSystem.empty.makeFile ["a"] (encode ['b']) false).makeFile ["b"] (encode ['c']) false

theorem resolve_bytes_cutShort :
    (0x0A ∈ cutShortBytes ∧
        (Input.bytes cutShortBytes).resolve forwardingFiles = .ok "T\uFFFD\n") ∧
      0x0A ∉ encode ['a'] ∧ (Input.path "a").ReadsFile "a" ∧
        forwardingFiles.readBytes "a" = .ok (encode "b".toList) ∧
        (Input.bytes (encode ['a'])).resolve forwardingFiles = .ok "b" := by
  have hmem : 0x0A ∈ cutShortBytes := by decide
  have hnot : 0x0A ∉ encode ['a'] := by decide
  have reads : (Input.path "a").ReadsFile "a" := readsFile_of_source rfl
  have hcontent : forwardingFiles.readBytes "a" = .ok (encode "b".toList) := by decide +kernel
  obtain ⟨-, -, inline, -⟩ := resolve_bytes cutShortBytes
  obtain ⟨-, -, -, path, kept⟩ := resolve_bytes (encode ['a'])
  refine ⟨⟨hmem, (inline hmem).1 forwardingFiles⟩, hnot, reads, hcontent, ?_⟩
  rw [path hnot]
  exact ((kept _ _ reads).1 forwardingFiles "b").2 hcontent

end MailMerge.Template
