/-
# The end of a call

A call of the program stands for one send. Its exit code tells whether the send succeeded,
and what it prints between the way of delivery and the end is the trace of the send, one
record for each entry. Without a template, or with values that cannot be used, there is no
send: nothing about the template, the options or the host then has any effect.
-/

import MailMerge.CommandLine
import MailMerge.Proofs.Json.Printer
import MailMerge.Proofs.Mailer.Agent
import MailMerge.Proofs.Stage
import MailMerge.Proofs.Template.Resolution

namespace MailMerge

open MailMerge.Delivery MailMerge.Host MailMerge.Json MailMerge.Mail MailMerge.Message
open MailMerge.Stage MailMerge.Template MailMerge.Text MailMerge.Trace

/-! ## The send of a call -/

/-- What the arguments behind a template say about values: without any there are no values, and
else the first of them is the path of a file that holds a JSON object as text. -/
inductive NamesValues (files : FileSystem) : List String → Option Values → Prop
  | absent : NamesValues files [] none
  | file {path : String} {rest : List String} {bytes : List UInt8} {text : List Char}
      {members : Members} (readable : files.readBytes path = .ok bytes)
      (encoded : decode? bytes = some text)
      (object : Value.parse (String.ofList text) = .ok (.object members)) :
      NamesValues files (path :: rest) (some ⟨members⟩)

namespace Invocation

variable [InternationalDomains] [FileTypes]

/-- The send that a call stands for: by a mailer with the options that the variables give. -/
def send (invocation : Invocation) (host : Host) (stamp : Stamp) (world : World)
    (template : String) (values : Option Values) : Sent :=
  ({ options := .ofEnvironment invocation.environment } : Mailer).send host stamp world
    (.text template) values

/-- A template is named, the values can be used, and the send succeeds. -/
def Succeeds (invocation : Invocation) (host : Host) (stamp : Stamp) (world : World) : Prop :=
  ∃ template rest values, invocation.arguments = template :: rest ∧
    NamesValues world.files rest values ∧
    (invocation.send host stamp world template values).outcome.result = .ok ()

end Invocation

section Values

variable {files : FileSystem} {path : String} {rest : List String}

/-- The values of a file are those that its path names. -/
theorem namesValues_cons_iff {values : Option Values} :
    NamesValues files (path :: rest) values ↔
      ∃ given, readValues files path = .ok given ∧ values = some given := by
  constructor
  · rintro (_ | ⟨readable, encoded, object⟩)
    rw [decode?_eq_some_iff_eq_encode.1 encoded] at readable
    refine ⟨_, ?_, rfl⟩
    rw [readValues, readText_eq_ok_iff.2 (by rw [readable, String.toList_ofList])]
    simp only [object, Values.ofValue?]
  · rintro ⟨given, hread, rfl⟩
    rw [readValues] at hread
    split at hread
    · cases hread
    next text htext =>
      have readable := readText_eq_ok_iff.1 htext
      split at hread
      · cases hread
      next value object =>
        cases value with
        | object members =>
            cases hread
            refine .file readable (decode?_encode _) ?_
            rw [String.ofList_toList]
            exact object
        | null | bool | number | string | array => cases hread

end Values

/-! ## What is printed -/

/-- The record of a trace entry: its level, its message and its annotations. -/
def Trace.Entry.record (entry : Entry) : List Char :=
  ("   [" ++ entry.level.name ++ "] " ++ entry.message ++ " " ++
    (Value.object entry.extra).compact).toList

/-- What is printed at the end of a call that sent. -/
def SendOutcome.closing (outcome : SendOutcome) : List Char :=
  match outcome.result with
  | .ok () => outputLine "   Sent.".toList
  | .error failure => failure.failure.write

/-- What no line but a record begins with. -/
def recordMark : List Char := "   [".toList

/-- The lines of an output that look like records. -/
def printedRecords (output : List Char) : List (List Char) :=
  (partsAt '\n' output).filter recordMark.isPrefixOf

/-- An opening of a line after which the line is no record. -/
def IsMargin (opening : List Char) : Prop :=
  '\n' ∉ opening ∧ List.replicate 4 ' ' <+: opening

instance (opening : List Char) : Decidable (IsMargin opening) :=
  inferInstanceAs (Decidable (_ ∧ _))

/-- Line by line, an output holds the records that its lines hold. -/
theorem printedRecords_flatMap_outputLine (texts : List (List Char)) (rest : List Char) :
    printedRecords (texts.flatMap outputLine ++ rest) =
      texts.flatMap printedRecords ++ printedRecords rest := by
  induction texts with
  | nil => rfl
  | cons text texts ih =>
      rw [List.flatMap_cons, List.flatMap_cons, List.append_assoc, List.append_assoc, ← ih,
        outputLine, List.append_assoc, List.singleton_append, printedRecords, partsAt_append_cons,
        List.filter_append]
      rfl

theorem printedRecords_of_single {line : List Char} (single : '\n' ∉ line) :
    printedRecords line = [line].filter recordMark.isPrefixOf := by
  rw [printedRecords, partsAt_of_not_mem single]

theorem IsMargin.printedRecords_append {opening line : List Char} (margin : IsMargin opening)
    (single : '\n' ∉ line) : printedRecords (opening ++ line) = [] := by
  rw [printedRecords_of_single (by simp [margin.1, single])]
  obtain ⟨rest, rfl⟩ := margin.2
  rfl

/-- No line of an indented text behind a margin is a record. -/
theorem IsMargin.printedRecords_indented {opening indentation : List Char}
    (hopening : IsMargin opening) (hindentation : IsMargin indentation) (text : List Char) :
    printedRecords (opening ++ indented indentation text) = [] := by
  have single : ∀ part ∈ partsAt '\n' text, '\n' ∉ part := fun _ => not_mem_of_mem_partsAt
  rw [indented]
  -- Each further part stands behind the indentation, which is a margin as well.
  generalize partsAt '\n' text = parts at single ⊢
  fun_induction joinWith ('\n' :: indentation) parts generalizing opening with
  | case1 => exact hopening.printedRecords_append List.not_mem_nil
  | case2 part => exact hopening.printedRecords_append (single part (by simp))
  | case3 part parts _ ih =>
      have hline :
          opening ++ (part ++ '\n' :: indentation ++ joinWith ('\n' :: indentation) parts) =
            [opening ++ part].flatMap outputLine ++
              (indentation ++ joinWith ('\n' :: indentation) parts) := by
        simp [outputLine]
      rw [hline, printedRecords_flatMap_outputLine, List.flatMap_singleton,
        hopening.printedRecords_append (single part (by simp)),
        ih hindentation fun other hother => single other (List.mem_cons_of_mem _ hother)]
      rfl

/-- Nothing that tells why a send failed looks like a record. -/
theorem printedRecords_failure (failure : SendFailure) :
    printedRecords failure.failure.write = [] := by
  have hlines {causes : List (List Char)} (plain : causes.flatMap printedRecords = []) :
      printedRecords (outputLine "Error: send failed".toList ++
        '\n' :: outputLine "Caused by:".toList ++ causes.flatMap outputLine) = [] := by
    have hwritten : outputLine "Error: send failed".toList ++
          '\n' :: outputLine "Caused by:".toList ++ causes.flatMap outputLine =
        ["Error: send failed".toList, [], "Caused by:".toList].flatMap outputLine ++
          (causes.flatMap outputLine ++ []) := by
      simp [outputLine]
    rw [hwritten, printedRecords_flatMap_outputLine, printedRecords_flatMap_outputLine, plain]
    rfl
  have single : IsMargin (List.replicate 4 ' ') := by decide
  have numbered : ∀ index < 2, IsMargin (rightAligned index ++ [':', ' ']) := by
    decide +kernel
  have further : IsMargin (List.replicate 7 ' ') := by decide
  rw [Failure.write, SendFailure.failure]
  cases failure.cause? with
  | none =>
      have honly := single.printedRecords_indented single failure.message.toList
      exact hlines (congrArg₂ (· ++ ·) honly rfl)
  | some cause =>
      have hfirst := (numbered 0 (by decide)).printedRecords_indented further failure.message.toList
      have hsecond := (numbered 1 (by decide)).printedRecords_indented further cause.toList
      rw [List.append_assoc] at hfirst hsecond
      exact hlines (congrArg₂ (· ++ ·) hfirst (congrArg₂ (· ++ ·) hsecond rfl))

theorem printedRecords_closing (outcome : SendOutcome) : printedRecords outcome.closing = [] := by
  rw [SendOutcome.closing]
  cases outcome.result with
  | ok => rfl
  | error failure => exact printedRecords_failure failure

theorem lineFeed_not_mem_name (level : Level) : '\n' ∉ level.name.toList := by
  cases level <;> decide

theorem printedRecords_record {entry : Entry} (single : '\n' ∉ entry.message.toList) :
    printedRecords entry.record = [entry.record] := by
  have hannotations : '\n' ∉ (Value.object entry.extra).compact.toList := by
    rw [Value.compact, String.toList_ofList]
    exact (Value.unbroken_write _).2
  have hrecord : '\n' ∉ entry.record := by
    simp [Entry.record, single, hannotations, lineFeed_not_mem_name]
  have hmark : recordMark.isPrefixOf entry.record := by
    simp [Entry.record, recordMark]
  rw [printedRecords_of_single hrecord, List.filter_singleton, hmark]
  rfl

/-- The records among the lines are those of the entries, in order. -/
theorem printedRecords_entries {entries : List Entry}
    (single : ∀ entry ∈ entries, '\n' ∉ entry.message.toList) (rest : List Char) :
    printedRecords (entries.flatMap entryLine ++ rest) =
      entries.map Entry.record ++ printedRecords rest := by
  have hentries : entries.flatMap entryLine = (entries.map Entry.record).flatMap outputLine := by
    rw [List.flatMap_map]
    rfl
  rw [hentries, printedRecords_flatMap_outputLine, List.flatMap_map,
    List.flatMap_congr fun entry hentry => printedRecords_record (single entry hentry),
    List.map_eq_flatMap]

theorem printedRecords_routeLine {options : Options}
    (single : ∀ host port, options.route = .relay host port → '\n' ∉ host.toList)
    (rest : List Char) : printedRecords (routeLine options ++ rest) = printedRecords rest := by
  have hline (way : String) (hway : '\n' ∉ way.toList) :
      printedRecords (outputLine ("   Transport: " ++ way).toList ++ rest) =
        printedRecords rest := by
    have hnone : printedRecords ("   Transport: " ++ way).toList = [] := by
      rw [printedRecords_of_single (by simp [hway]), String.toList_append]
      rfl
    rw [← List.flatMap_singleton outputLine, printedRecords_flatMap_outputLine,
      List.flatMap_singleton, hnone, List.nil_append]
  rw [routeLine]
  cases hroute : options.route with
  | program command => exact hline "sendmail" (by decide)
  | relay host port =>
      apply hline
      simp [decimal, single host port hroute, (unbroken_decimalDigits port.val).2]

/-! ## The end of a call -/

/-- A call leaves the world of a send behind, and between the way of delivery and the end it prints
the trace of this send, one record for each entry. No other line looks like a record, if the
messages and the name of the relay have one line each. -/
structure CallResult.Tells (result : CallResult) (options : Options) (sent : Sent) : Prop where
  world : result.world = sent.world
  output : result.output = routeLine options ++
    (sent.outcome.trace.map Entry.record).flatMap outputLine ++ sent.outcome.closing
  records : (∀ entry ∈ sent.outcome.trace, '\n' ∉ entry.message.toList) →
    (∀ host port, options.route = .relay host port → '\n' ∉ host.toList) →
      printedRecords result.output = sent.outcome.trace.map Entry.record

/-- The account of a call by its result. -/
structure Invocation.Account [InternationalDomains] [FileTypes]
    (invocation : Invocation) (host : Host) (stamp : Stamp)
    (world : World) (result : CallResult) : Prop where
  usage : result.code = 2 ↔ invocation.arguments = []
  success : result.code = 0 ∧ outputLine "   Sent.".toList <:+ result.output ↔
    invocation.Succeeds host stamp world
  failure : result.code = 1 ↔
    invocation.arguments ≠ [] ∧ ¬ invocation.Succeeds host stamp world
  sent : ∀ template rest values, invocation.arguments = template :: rest →
    NamesValues world.files rest values →
      result.Tells (.ofEnvironment invocation.environment)
        (invocation.send host stamp world template values)
  /-- With values that cannot be used, nothing else that a send would look at has any effect. -/
  unsent : ∀ template rest, invocation.arguments = template :: rest →
    (∀ values, ¬ NamesValues world.files rest values) →
      result.world = world ∧ ∀ otherHost otherStamp otherTemplate otherEnvironment,
        answerCall otherHost otherStamp world ⟨otherTemplate :: rest, otherEnvironment⟩ = result

section Account

variable [InternationalDomains] [FileTypes]
  {host : Host} {stamp : Stamp} {world : World} {environment : Environment}
  {template : String} {rest : List String} {values : Option Values}

theorem answerCall_of_unusable (unusable : ∀ values, ¬ NamesValues world.files rest values) :
    ∃ failure : Failure, ∀ host stamp template environment,
      answerCall host stamp world ⟨template :: rest, environment⟩ =
        ⟨failureCode, failure.write, world⟩ := by
  cases rest with
  | nil => exact absurd .absent (unusable none)
  | cons path rest =>
      cases hread : readValues world.files path with
      | ok values => exact absurd (namesValues_cons_iff.2 ⟨values, hread, rfl⟩) (unusable _)
      | error failure =>
          refine ⟨failure, fun host stamp template environment => ?_⟩
          simp only [answerCall, hread]

theorem answerCall_of_usable (usable : NamesValues world.files rest values) :
    answerCall host stamp world ⟨template :: rest, environment⟩ =
      callMailer host stamp world environment template values := by
  cases rest with
  | nil =>
      cases usable
      rfl
  | cons path rest =>
      obtain ⟨given, hread, rfl⟩ := namesValues_cons_iff.1 usable
      simp only [answerCall, hread]

/-- A call with usable values answers by the outcome of its send. -/
theorem callMailer_eq (invocation : Invocation) :
    let sent := invocation.send host stamp world template values
    callMailer host stamp world invocation.environment template values =
      ⟨match sent.outcome.result with | .ok () => 0 | .error _ => 1,
        routeLine (.ofEnvironment invocation.environment) ++
          sent.outcome.trace.flatMap entryLine ++ sent.outcome.closing,
        sent.world⟩ := by
  obtain ⟨houtcome, hworld⟩ := Mailer.send_withAgent
    { options := .ofEnvironment invocation.environment }
    ((invocation.environment.lookup "MAILER_TRACE").map fun _ => Agent.logger) host stamp world
    (.text template) values
  simp only [callMailer, Invocation.send, SendOutcome.closing, houtcome, hworld]
  generalize Mailer.send _ host stamp world (.text template) values = sent
  cases sent.outcome.result with
  | ok => rfl
  | error failure => rfl

theorem callMailer_tells (invocation : Invocation) :
    (callMailer host stamp world invocation.environment template values).Tells
      (.ofEnvironment invocation.environment)
      (invocation.send host stamp world template values) := by
  rw [callMailer_eq]
  refine ⟨rfl, ?_, fun single hroute => ?_⟩
  · rw [List.flatMap_map]
    rfl
  · rw [List.append_assoc, printedRecords_routeLine hroute, printedRecords_entries single,
      printedRecords_closing, List.append_nil]

theorem answerCall_of_succeeds {invocation : Invocation}
    (succeeds : invocation.Succeeds host stamp world) :
    (answerCall host stamp world invocation).code = 0 ∧
      outputLine "   Sent.".toList <:+ (answerCall host stamp world invocation).output := by
  obtain ⟨arguments, environment⟩ := invocation
  obtain ⟨template, rest, values, rfl, usable, hresult⟩ := succeeds
  rw [answerCall_of_usable usable, callMailer_eq ⟨_, environment⟩, SendOutcome.closing, hresult]
  exact ⟨rfl, List.suffix_append ..⟩

theorem answerCall_of_not_succeeds {invocation : Invocation} (named : invocation.arguments ≠ [])
    (fails : ¬ invocation.Succeeds host stamp world) :
    (answerCall host stamp world invocation).code = 1 := by
  obtain ⟨arguments, environment⟩ := invocation
  obtain ⟨template, rest, rfl⟩ := List.exists_cons_of_ne_nil named
  by_cases usable : ∃ values, NamesValues world.files rest values
  · obtain ⟨values, usable⟩ := usable
    rw [answerCall_of_usable usable, callMailer_eq ⟨template :: rest, environment⟩]
    split
    · next hresult => exact absurd ⟨template, rest, values, rfl, usable, hresult⟩ fails
    · rfl
  · obtain ⟨failure, hanswer⟩ := answerCall_of_unusable (not_exists.1 usable)
    rw [hanswer]
    rfl

/-- Every call is accounted for by its result. -/
theorem answerCall_account (host : Host) (stamp : Stamp) (world : World)
    (invocation : Invocation) :
    invocation.Account host stamp world (answerCall host stamp world invocation) := by
  have husage (named : invocation.arguments = []) :
      (answerCall host stamp world invocation).code = 2 := by
    rw [answerCall, named]
    rfl
  constructor
  · refine ⟨fun hcode => ?_, husage⟩
    by_contra named
    by_cases succeeds : invocation.Succeeds host stamp world
    · cases hcode.symm.trans (answerCall_of_succeeds succeeds).1
    · cases hcode.symm.trans (answerCall_of_not_succeeds named succeeds)
  · refine ⟨fun ⟨hcode, _⟩ => ?_, answerCall_of_succeeds⟩
    by_contra fails
    by_cases named : invocation.arguments = []
    · cases hcode.symm.trans (husage named)
    · cases hcode.symm.trans (answerCall_of_not_succeeds named fails)
  · refine ⟨fun hcode => ⟨fun named => ?_, fun succeeds => ?_⟩, fun ⟨named, fails⟩ =>
      answerCall_of_not_succeeds named fails⟩
    · cases hcode.symm.trans (husage named)
    · cases hcode.symm.trans (answerCall_of_succeeds succeeds).1
  · rintro template rest values named usable
    obtain ⟨arguments, environment⟩ := invocation
    obtain rfl : arguments = template :: rest := named
    rw [answerCall_of_usable usable]
    exact callMailer_tells ⟨template :: rest, environment⟩
  · rintro template rest named unusable
    obtain ⟨arguments, environment⟩ := invocation
    obtain rfl : arguments = template :: rest := named
    obtain ⟨failure, hanswer⟩ := answerCall_of_unusable unusable
    rw [hanswer]
    exact ⟨rfl, hanswer⟩

end Account

end MailMerge
