import Mathlib

/-!
# Lists of outcomes

A list of computations that can fail has a result if each of them has one. The results stand in
the order of the computations. Two computations are related if they fail alike or have related
results.
-/

namespace Blockwright

namespace Outcome

variable {ε α β γ δ : Type}

theorem bind_eq_ok {outcome : Except ε α} {next : α → Except ε β} {result : β} :
    outcome >>= next = .ok result ↔ ∃ value, outcome = .ok value ∧ next value = .ok result := by
  cases outcome <;> simp [bind, Except.bind]

theorem bind_eq_error {outcome : Except ε α} {next : α → Except ε β} {error : ε} :
    outcome >>= next = .error error ↔
      outcome = .error error ∨ ∃ value, outcome = .ok value ∧ next value = .error error := by
  cases outcome <;> simp [bind, Except.bind]

/-- What follows a check is done if the check is passed. -/
theorem check_bind_eq_ok {check : Except ε Unit} {next : Unit → Except ε β} {result : β} :
    check >>= next = .ok result ↔ check = .ok () ∧ next () = .ok result := by
  cases check <;> simp [bind, Except.bind]

theorem map_eq_ok {outcome : Except ε α} {change : α → β} {result : β} :
    outcome.map change = .ok result ↔ ∃ value, outcome = .ok value ∧ change value = result := by
  cases outcome <;> simp [Except.map]

theorem map_eq_error {outcome : Except ε α} {change : α → β} {error : ε} :
    outcome.map change = .error error ↔ outcome = .error error := by
  cases outcome <;> simp [Except.map]

theorem mapError_eq_ok {outcome : Except ε α} {change : ε → δ} {value : α} :
    outcome.mapError change = .ok value ↔ outcome = .ok value := by
  cases outcome <;> simp [Except.mapError]

/-- What is made of a result cannot fail. -/
theorem bind_pure_eq_error {outcome : Except ε α} {change : α → β} {error : ε} :
    (outcome >>= fun value => pure (change value)) = .error error ↔ outcome = .error error := by
  cases outcome <;> simp [bind, Except.bind, pure, Except.pure]

/-- A list of computations has results if each of them has its own. -/
theorem mapM_eq_ok {compute : α → Except ε β} {inputs : List α} {results : List β} :
    inputs.mapM compute = .ok results ↔
      List.Forall₂ (fun input result => compute input = .ok result) inputs results := by
  induction inputs generalizing results with
  | nil => simp [pure, Except.pure, eq_comm]
  | cons input inputs ih =>
    rw [List.mapM_cons, bind_eq_ok]
    constructor
    · rintro ⟨first, firstOk, rest⟩
      obtain ⟨others, othersOk, finished⟩ := bind_eq_ok.1 rest
      cases finished
      exact .cons firstOk (ih.1 othersOk)
    · intro each
      cases each with
      | cons firstOk othersOk =>
        exact ⟨_, firstOk, bind_eq_ok.2 ⟨_, ih.2 othersOk, rfl⟩⟩

/-- All checks are passed if each of them is. -/
theorem forM_eq_ok {check : α → Except ε Unit} {inputs : List α} :
    inputs.forM check = .ok () ↔ ∀ input ∈ inputs, check input = .ok () := by
  induction inputs with
  | nil => simp [pure, Except.pure]
  | cons input rest ih => rw [List.forM, check_bind_eq_ok, ih, List.forall_mem_cons]

theorem mapM_eq_ok_map {compute : α → Except ε β} {result : α → β} {inputs : List α}
    (each : ∀ input ∈ inputs, compute input = .ok (result input)) :
    inputs.mapM compute = .ok (inputs.map result) := by
  rw [mapM_eq_ok, List.forall₂_map_right_iff]
  exact List.forall₂_same.2 each

/-- A list of computations fails with the first one that fails. -/
theorem mapM_eq_error {compute : α → Except ε β} {inputs : List α} {error : ε} :
    inputs.mapM compute = .error error ↔
      ∃ before input after, inputs = before ++ input :: after ∧
        (∀ earlier ∈ before, ∃ result, compute earlier = .ok result) ∧
        compute input = .error error := by
  induction inputs with
  | nil => simp [pure, Except.pure]
  | cons input inputs ih =>
    rw [List.mapM_cons]
    cases computed : compute input with
    | error fault =>
      constructor
      · rintro ⟨⟩
        exact ⟨[], input, inputs, rfl, by simp, computed⟩
      · rintro ⟨before, failing, after, split, earlier, failed⟩
        cases before with
        | nil =>
          obtain ⟨rfl, rfl⟩ := List.cons.inj split
          rw [computed] at failed
          cases failed
          rfl
        | cons first before =>
          obtain ⟨rfl, -⟩ := List.cons.inj split
          obtain ⟨result, isOk⟩ := earlier _ List.mem_cons_self
          rw [computed] at isOk
          cases isOk
    | ok result =>
      refine bind_pure_eq_error.trans (ih.trans ⟨?_, ?_⟩)
      · rintro ⟨before, failing, after, rfl, earlier, failed⟩
        exact ⟨input :: before, failing, after, rfl,
          List.forall_mem_cons.2 ⟨⟨result, computed⟩, earlier⟩, failed⟩
      · rintro ⟨before, failing, after, split, earlier, failed⟩
        cases before with
        | nil =>
          obtain ⟨rfl, rfl⟩ := List.cons.inj split
          rw [computed] at failed
          cases failed
        | cons first before =>
          obtain ⟨rfl, rfl⟩ := List.cons.inj split
          exact ⟨before, failing, after, rfl, (List.forall_mem_cons.1 earlier).2, failed⟩

theorem mapM_congr {compute other : α → Except ε β} {inputs : List α}
    (same : ∀ input ∈ inputs, compute input = other input) :
    inputs.mapM compute = inputs.mapM other := by
  induction inputs with
  | nil => rfl
  | cons input inputs ih =>
    rw [List.forall_mem_cons] at same
    rw [List.mapM_cons, List.mapM_cons, same.1, ih same.2]

/-- Lists of computations one after the other are one list of them. -/
theorem mapM_mapM {compute : α → Except ε β} (inputs : List (List α)) :
    (inputs.mapM (·.mapM compute) >>= fun results => pure results.flatten) =
      inputs.flatten.mapM compute := by
  induction inputs with
  | nil => rfl
  | cons first inputs ih =>
    rw [List.mapM_cons, List.flatten_cons, List.mapM_append, ← ih]
    cases first.mapM compute with
    | error error => rfl
    | ok results => cases inputs.mapM (·.mapM compute) <;> rfl

/-- Every value on the right has a partner on the left. -/
theorem exists_of_forall₂ {relation : α → β → Prop} {inputs : List α} {results : List β}
    (each : List.Forall₂ relation inputs results) {result : β} (isResult : result ∈ results) :
    ∃ input ∈ inputs, relation input result := by
  induction each with
  | nil => simp at isResult
  | cons first _ ih =>
    rcases List.mem_cons.1 isResult with rfl | later
    · exact ⟨_, by simp, first⟩
    · obtain ⟨input, isInput, found⟩ := ih later
      exact ⟨input, by simp [isInput], found⟩

/-- Every value on the left has a partner on the right. -/
theorem exists_result_of_forall₂ {relation : α → β → Prop} {inputs : List α} {results : List β}
    (each : List.Forall₂ relation inputs results) {input : α} (isInput : input ∈ inputs) :
    ∃ result ∈ results, relation input result :=
  exists_of_forall₂ each.flip isInput

/-- What partners share is shared in the same order. -/
theorem map_eq_map_of_forall₂ {relation : α → β → Prop} {inputs : List α} {results : List β}
    {left : α → γ} {right : β → γ} (each : List.Forall₂ relation inputs results)
    (same : ∀ input result, relation input result → left input = right result) :
    inputs.map left = results.map right := by
  induction each with
  | nil => rfl
  | cons first _ ih => rw [List.map_cons, List.map_cons, same _ _ first, ih]

/-- Lists of partners are the sides of a list of pairs. -/
theorem exists_pairs_of_forall₂ {relation : α → β → Prop} {first : List α} {second : List β}
    (each : List.Forall₂ relation first second) :
    ∃ pairs : List (α × β), (∀ pair ∈ pairs, relation pair.1 pair.2) ∧
      pairs.map Prod.fst = first ∧ pairs.map Prod.snd = second := by
  induction each with
  | nil => exact ⟨[], by simp⟩
  | @cons value other _ _ head _ ih =>
    obtain ⟨pairs, related, rfl, rfl⟩ := ih
    exact ⟨(value, other) :: pairs, List.forall_mem_cons.2 ⟨head, related⟩, rfl, rfl⟩

theorem any_eq_of_forall₂ {relation : α → β → Prop} {first : List α} {second : List β}
    {test : α → Bool} {otherTest : β → Bool} (each : List.Forall₂ relation first second)
    (sameTest : ∀ value other, relation value other → test value = otherTest other) :
    first.any test = second.any otherTest := by
  have tests : first.map test = second.map otherTest := map_eq_map_of_forall₂ each sameTest
  simpa [List.any_map] using congrArg (List.any · id) tests

/-- Every result is the result of an input. -/
theorem exists_of_mem_mapM {compute : α → Except ε β} {inputs : List α} {results : List β}
    (computed : inputs.mapM compute = .ok results) {result : β} (isResult : result ∈ results) :
    ∃ input ∈ inputs, compute input = .ok result :=
  exists_of_forall₂ (mapM_eq_ok.1 computed) isResult

/-- Every input has a result. -/
theorem exists_result_of_mem {compute : α → Except ε β} {inputs : List α} {results : List β}
    (computed : inputs.mapM compute = .ok results) {input : α} (isInput : input ∈ inputs) :
    ∃ result ∈ results, compute input = .ok result :=
  exists_result_of_forall₂ (mapM_eq_ok.1 computed) isInput

/-- Computations in another order have the same results in another order. -/
theorem mapM_perm {compute : α → Except ε β} {inputs others : List α} {results : List β}
    (computed : inputs.mapM compute = .ok results) (reordered : inputs.Perm others) :
    ∃ otherResults, others.mapM compute = .ok otherResults ∧ results.Perm otherResults := by
  have each := mapM_eq_ok.1 computed
  obtain ⟨otherResults, otherEach, same⟩ :=
    (List.perm_comp_forall₂ reordered.symm each)
  exact ⟨otherResults, mapM_eq_ok.2 otherEach, same.symm⟩

/-! ## Related outcomes -/

/-- Whether two outcomes are the same error or have related values. -/
inductive Related (relation : α → β → Prop) : Except ε α → Except ε β → Prop where
  | ok {value : α} {other : β} : relation value other → Related relation (.ok value) (.ok other)
  | error (error : ε) : Related relation (.error error) (.error error)

namespace Related

variable {relation : α → β → Prop} {first : Except ε α} {second : Except ε β}

theorem bind {after : γ → δ → Prop} {next : α → Except ε γ} {otherNext : β → Except ε δ}
    (related : Related relation first second)
    (step : ∀ value other, relation value other → Related after (next value) (otherNext other)) :
    Related after (first >>= next) (second >>= otherNext) := by
  cases related with
  | ok values => exact step _ _ values
  | error error => exact .error error

theorem error_iff (related : Related relation first second) (error : ε) :
    first = .error error ↔ second = .error error := by
  cases related with
  | ok values => exact ⟨nofun, nofun⟩
  | error fault => simp

theorem isOk_iff (related : Related relation first second) :
    (∃ value, first = .ok value) ↔ ∃ other, second = .ok other := by
  cases related with
  | ok values => exact ⟨fun _ => ⟨_, rfl⟩, fun _ => ⟨_, rfl⟩⟩
  | error => exact ⟨nofun, nofun⟩

theorem of_ok (related : Related relation first second) {value : α} {other : β}
    (isOk : first = .ok value) (otherOk : second = .ok other) : relation value other := by
  cases related with
  | ok values =>
    cases isOk
    cases otherOk
    exact values
  | error => cases isOk

end Related

end Outcome

end Blockwright
