/-
# Stages that may fail

A computation of several stages gives a value exactly when every stage gives one.
The laws here take such a computation apart from its result, one stage at a time. When
it gives none, its fault is that of the first stage that fails.
-/

import Mathlib.Data.List.Forall2

namespace MailMerge.Stage

variable {ε ε' α β : Type}

/-- A stage that gave a value hands it to the next. -/
theorem ok_bind (value : α) (next : α → Except ε β) :
    ((.ok value : Except ε α) >>= next) = next value :=
  rfl

/-- A stage that failed ends the computation. -/
theorem error_bind (fault : ε) (next : α → Except ε β) :
    ((.error fault : Except ε α) >>= next) = .error fault :=
  rfl

/-- What is made of the result of two stages is made of the result of the second. -/
theorem map_bind {γ : Type} (f : β → γ) (first : Except ε α) (next : α → Except ε β) :
    (first >>= next).map f = first >>= fun value => (next value).map f := by
  cases first <;> rfl

theorem map_map {γ : Type} (f : α → β) (g : β → γ) (first : Except ε α) :
    (first.map f).map g = first.map (g ∘ f) := by
  cases first <;> rfl

/-- Two stages give a value exactly when the first gives one from which the second does. -/
theorem bind_eq_ok_iff {first : Except ε α} {next : α → Except ε β} {result : β} :
    first >>= next = .ok result ↔ ∃ value, first = .ok value ∧ next value = .ok result := by
  cases first with
  | error fault => simp [error_bind]
  | ok value => simp [ok_bind]

theorem map_eq_ok_iff {first : Except ε α} {f : α → β} {result : β} :
    first.map f = .ok result ↔ ∃ value, first = .ok value ∧ f value = result := by
  cases first <;> simp [Except.map]

theorem map_eq_error_iff {first : Except ε α} {f : α → β} {fault : ε} :
    first.map f = .error fault ↔ first = .error fault := by
  cases first <;> simp [Except.map]

/-- Naming a fault otherwise changes no value. -/
theorem mapError_eq_ok_iff {first : Except ε α} {f : ε → ε'} {result : α} :
    first.mapError f = .ok result ↔ first = .ok result := by
  cases first <;> simp [Except.mapError]

theorem mapError_eq_error_iff {result : Except ε α} {f : ε → ε'} {fault' : ε'} :
    result.mapError f = .error fault' ↔ ∃ fault, result = .error fault ∧ f fault = fault' := by
  cases result <;> simp [Except.mapError]

/-- Naming a fault otherwise can be left to each of two stages. -/
theorem mapError_bind (f : ε → ε') (first : Except ε α) (next : α → Except ε β) :
    (first >>= next).mapError f = first.mapError f >>= fun value => (next value).mapError f := by
  cases first <;> rfl

/-- A stage for each member of a list gives values exactly when every member gives its own. -/
theorem mapM_eq_ok_iff {stage : α → Except ε β} {members : List α} {results : List β} :
    members.mapM stage = .ok results ↔
      List.Forall₂ (fun member result => stage member = .ok result) members results := by
  induction members generalizing results with
  | nil =>
      rw [List.mapM_nil]
      constructor
      · rintro ⟨⟩
        exact .nil
      · rintro ⟨⟩
        rfl
  | cons member members ih =>
      rw [List.mapM_cons, bind_eq_ok_iff]
      constructor
      · rintro ⟨result, hresult, hrest⟩
        obtain ⟨others, hothers, heq⟩ := bind_eq_ok_iff.1 hrest
        cases heq
        exact .cons hresult (ih.1 hothers)
      · rintro (_ | ⟨hresult, hothers⟩)
        exact ⟨_, hresult, bind_eq_ok_iff.2 ⟨_, ih.2 hothers, rfl⟩⟩

/-- Every value that is given comes from a member. -/
theorem exists_mem_of_mapM_eq_ok {stage : α → Except ε β} {members : List α}
    {results : List β} (given : members.mapM stage = .ok results) {result : β}
    (hresult : result ∈ results) : ∃ member ∈ members, stage member = .ok result := by
  induction mapM_eq_ok_iff.1 given with
  | nil => exact absurd hresult List.not_mem_nil
  | @cons member first members others hfirst hothers ih =>
      rcases List.mem_cons.1 hresult with rfl | hresult
      · exact ⟨member, by simp, hfirst⟩
      · obtain ⟨other, hother, hstage⟩ := ih (mapM_eq_ok_iff.2 hothers) hresult
        exact ⟨other, List.mem_cons_of_mem _ hother, hstage⟩

/-! ## The first stage that fails -/

variable {σ : Type} {fails : σ → ε → Prop} {stages stages' : List σ}

/-- The fault of the first stage that fails: none of the stages before it does. -/
def FirstFault (fails : σ → ε → Prop) (stages : List σ) (fault : ε) : Prop :=
  ∃ earlier stage later, stages = earlier ++ stage :: later ∧
    (∀ before ∈ earlier, ∀ other, ¬ fails before other) ∧ fails stage fault

/-- A result that stages in order give: the fault of the first one that fails, or a value when none
does. -/
def Follows (fails : σ → ε → Prop) (stages : List σ) : Except ε α → Prop
  | .error fault => FirstFault fails stages fault
  | .ok _ => ∀ stage ∈ stages, ∀ fault, ¬ fails stage fault

namespace Follows

theorem nil (value : α) : Follows fails [] (.ok value) :=
  fun _ hstage => absurd hstage List.not_mem_nil

/-- A single stage decides about the result. -/
theorem single {stage : σ} {result : Except ε α}
    (decides : ∀ fault, fails stage fault ↔ result = .error fault) :
    Follows fails [stage] result := by
  cases result with
  | error fault =>
      exact ⟨[], stage, [], rfl, fun _ hbefore => absurd hbefore List.not_mem_nil,
        (decides fault).2 rfl⟩
  | ok value =>
      intro other hother fault
      rw [List.mem_singleton.1 hother, decides]
      exact fun heq => nomatch heq

/-- What is made of a value does not fail. -/
theorem map {result : Except ε α} (follows : Follows fails stages result) (f : α → β) :
    Follows fails stages (result.map f) := by
  cases result with
  | error fault => exact follows
  | ok value => exact follows

/-- Stages go on where those before them gave a value. -/
theorem bind {first : Except ε α} {next : α → Except ε β}
    (follows : Follows fails stages first)
    (continues : ∀ value, first = .ok value → Follows fails stages' (next value)) :
    Follows fails (stages ++ stages') (first >>= next) := by
  cases first with
  | error fault =>
      obtain ⟨earlier, stage, later, heq, hearlier, hstage⟩ := follows
      refine ⟨earlier, stage, later ++ stages', ?_, hearlier, hstage⟩
      rw [heq, List.append_assoc, List.cons_append]
  | ok value =>
      have hnext := continues value rfl
      rw [ok_bind]
      cases hresult : next value with
      | error fault =>
          rw [hresult] at hnext
          obtain ⟨earlier, stage, later, heq, hearlier, hstage⟩ := hnext
          refine ⟨stages ++ earlier, stage, later, ?_, ?_, hstage⟩
          · rw [heq, List.append_assoc]
          · exact List.forall_mem_append.2 ⟨follows, hearlier⟩
      | ok result =>
          rw [hresult] at hnext
          exact List.forall_mem_append.2 ⟨follows, hnext⟩

theorem cons {stage : σ} {first : Except ε α} {next : α → Except ε β}
    (follows : Follows fails [stage] first)
    (continues : ∀ value, first = .ok value → Follows fails stages (next value)) :
    Follows fails (stage :: stages) (first >>= next) :=
  follows.bind continues

/-- The last stage is followed by what is made of its value. -/
theorem finish {result : Except ε α} (follows : Follows fails stages result) (f : α → β) :
    Follows fails stages (result >>= fun value => pure (f value)) := by
  cases result with
  | error fault => exact follows
  | ok value => exact follows

/-- One stage for each member of a list. -/
theorem mapM (run : α → Except ε β) (members : List α) :
    Follows (fun member fault => run member = .error fault) members (members.mapM run) := by
  induction members with
  | nil => exact .nil _
  | cons member members ih =>
      rw [List.mapM_cons]
      apply Follows.cons
      · exact .single fun fault => Iff.rfl
      · intro value _
        exact ih.finish _

end Follows

/-- Stages that each fail in one way have one first fault. -/
theorem FirstFault.unique
    (determined : ∀ stage fault fault', fails stage fault → fails stage fault' → fault = fault')
    {fault fault' : ε} (first : FirstFault fails stages fault)
    (first' : FirstFault fails stages fault') : fault = fault' := by
  obtain ⟨earlier, stage, later, heq, hearlier, hstage⟩ := first
  obtain ⟨earlier', stage', later', heq', hearlier', hstage'⟩ := first'
  -- Of two places that differ, the first would be before the other and fail.
  rcases List.append_eq_append_iff.1 (heq.symm.trans heq') with
    ⟨rest, hleft, hright⟩ | ⟨rest, hleft, hright⟩
  · cases rest with
    | nil =>
        cases hright
        exact determined _ _ _ hstage hstage'
    | cons other rest =>
        obtain rfl : stage = other := (List.cons.inj hright).1
        exact absurd hstage (hearlier' stage (by simp [hleft]) fault)
  · cases rest with
    | nil =>
        cases hright
        exact determined _ _ _ hstage hstage'
    | cons other rest =>
        obtain rfl : stage' = other := (List.cons.inj hright).1
        exact absurd hstage' (hearlier stage' (by simp [hleft]) fault')

/-- A result that follows from stages fails just as the first of them to fail. -/
theorem Follows.eq_error_iff
    (determined : ∀ stage fault fault', fails stage fault → fails stage fault' → fault = fault')
    {result : Except ε α} (follows : Follows fails stages result) {fault : ε} :
    result = .error fault ↔ FirstFault fails stages fault := by
  cases result with
  | error other =>
      rw [Except.error.injEq]
      constructor
      · rintro rfl
        exact follows
      · exact fun first => FirstFault.unique determined follows first
  | ok value =>
      constructor
      · intro heq
        cases heq
      · rintro ⟨earlier, stage, later, heq, -, hstage⟩
        exact absurd hstage (follows stage (by simp [heq]) fault)

/-- It gives a value just when none of them fails. -/
theorem Follows.exists_eq_ok_iff {result : Except ε α} (follows : Follows fails stages result) :
    (∃ value, result = .ok value) ↔ ∀ stage ∈ stages, ∀ fault, ¬ fails stage fault := by
  cases result with
  | error fault =>
      obtain ⟨earlier, stage, later, heq, -, hstage⟩ := follows
      constructor
      · rintro ⟨value, hvalue⟩
        cases hvalue
      · intro clean
        exact absurd hstage (clean stage (by simp [heq]) fault)
  | ok value => exact ⟨fun _ => follows, fun _ => ⟨value, rfl⟩⟩

end MailMerge.Stage
