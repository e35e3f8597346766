import Mathlib.Data.List.Basic

/-!
# Labelled machines and their finite runs

The labels of a `Machine` carry every choice that is not the machine's own, so a
start and a list of labels determine at most one run. `Machine.Runs` is the
relational view used by proofs: it also records a side condition that every step
of the run met. `Machine.exec` is the executable view, and `Runs.ofExec` turns a
computed run into a relational one.
-/

namespace EspressoProxy.Semantics

universe u v

/-- A partial step function whose labels resolve all nondeterminism. -/
structure Machine (State : Type u) (Label : Type v) where
  step : State → Label → Option State

namespace Machine

variable {State : Type u} {Label : Type v}

/-- Finite runs from `start` all of whose steps were admitted by a side condition
on the state before the step and its label. -/
inductive Runs (machine : Machine State Label) (admits : State → Label → Prop)
    (start : State) : List Label → State → Prop where
  | refl : Runs machine admits start [] start
  | step {labels current label next}
      (prior : Runs machine admits start labels current)
      (admitted : admits current label)
      (transition : machine.step current label = some next) :
      Runs machine admits start (labels ++ [label]) next

/-- Unconditional runs. -/
abbrev Reaches (machine : Machine State Label) (start : State) :
    List Label → State → Prop :=
  machine.Runs (fun _ _ => True) start

variable {machine : Machine State Label} {admits : State → Label → Prop}
  {start current middle final : State} {labels more : List Label}

/-- One more step, by a label of choice. -/
theorem Runs.next (prior : machine.Runs admits start labels current) (label : Label)
    (admitted : admits current label) (transition : machine.step current label = some final) :
    machine.Runs admits start (labels ++ [label]) final :=
  .step prior admitted transition

/-- The last step of a run. -/
theorem Runs.last {label : Label} (run : machine.Runs admits start (labels ++ [label]) final) :
    ∃ current, machine.Runs admits start labels current ∧ admits current label ∧
      machine.step current label = some final := by
  generalize taken : labels ++ [label] = all at run
  cases run with
  | refl => simp at taken
  | step prior admitted transition =>
      obtain ⟨rfl, same⟩ := List.append_inj' taken rfl
      cases same
      exact ⟨_, prior, admitted, transition⟩

/-- The labels determine where a run leads. -/
theorem Runs.unique (first : machine.Runs admits start labels current)
    (second : machine.Runs admits start labels final) : current = final := by
  induction first generalizing final with
  | refl =>
      generalize taken : ([] : List Label) = all at second
      cases second with
      | refl => rfl
      | step => simp at taken
  | step _ _ transition inductionHypothesis =>
      obtain ⟨before, prior, -, repeated⟩ := second.last
      cases inductionHypothesis prior
      exact Option.some.inj (transition.symm.trans repeated)

/-- A property of states that holds at the start and that admitted steps keep
holds in every state of every run. -/
theorem Runs.invariant {P : State → Prop}
    (run : machine.Runs admits start labels final) (initial : P start)
    (preserved : ∀ {state label next}, P state → admits state label →
      machine.step state label = some next → P next) :
    P final := by
  induction run with
  | refl => exact initial
  | step _ admitted transition inductionHypothesis =>
      exact preserved inductionHypothesis admitted transition

/-- The same rule for properties that also speak about the run so far. -/
theorem Runs.invariantAlong {P : List Label → State → Prop}
    (run : machine.Runs admits start labels final) (initial : P [] start)
    (preserved : ∀ {taken state label next}, machine.Runs admits start taken state →
      P taken state → admits state label → machine.step state label = some next →
      P (taken ++ [label]) next) :
    P labels final := by
  induction run with
  | refl => exact initial
  | step prior admitted transition inductionHypothesis =>
      exact preserved prior inductionHypothesis admitted transition

/-- The same rule for properties that also speak about the labels taken so far. -/
theorem Runs.invariantWithLabels {P : List Label → State → Prop}
    (run : machine.Runs admits start labels final) (initial : P [] start)
    (preserved : ∀ {taken state label next}, P taken state → admits state label →
      machine.step state label = some next → P (taken ++ [label]) next) :
    P labels final :=
  run.invariantAlong initial fun _ => preserved

/-- A run under a stronger side condition is a run under a weaker one. -/
theorem Runs.weaken {weaker : State → Label → Prop}
    (run : machine.Runs admits start labels final)
    (implied : ∀ {state label}, admits state label → weaker state label) :
    machine.Runs weaker start labels final := by
  induction run with
  | refl => exact .refl
  | step _ admitted transition inductionHypothesis =>
      exact .step inductionHypothesis (implied admitted) transition

/-- Forget the side condition. -/
theorem Runs.reaches (run : machine.Runs admits start labels final) :
    machine.Reaches start labels final :=
  run.weaken fun _ => trivial

/-- Compose two runs that meet in one state. -/
theorem Runs.trans (first : machine.Runs admits start labels middle)
    (second : machine.Runs admits middle more final) :
    machine.Runs admits start (labels ++ more) final := by
  induction second with
  | refl => simpa using first
  | step _ admitted transition inductionHypothesis =>
      simpa [List.append_assoc] using Runs.step inductionHypothesis admitted transition

/-- A run seen through a projection under which every step is a step of another machine
or changes nothing. -/
theorem Runs.project {Other : Type u} {Action : Type v} {other : Machine Other Action}
    (view : State → Other) (run : machine.Runs admits start labels final)
    (simulates : ∀ {state label next}, machine.step state label = some next →
      view next = view state ∨ ∃ action, other.step (view state) action = some (view next)) :
    ∃ actions, other.Reaches (view start) actions (view final) := by
  induction run with
  | refl => exact ⟨[], .refl⟩
  | step _ _ transition inductionHypothesis =>
      obtain ⟨actions, earlier⟩ := inductionHypothesis
      rcases simulates transition with same | ⟨action, moved⟩
      · exact ⟨actions, same ▸ earlier⟩
      · exact ⟨actions ++ [action], earlier.next action trivial moved⟩

/-- A run is matched by a run of another machine, if each of its steps is matched by a run
between related states. -/
theorem Runs.simulate {Other : Type u} {Action : Type v} {other : Machine Other Action}
    {image : Other} (run : machine.Runs admits start labels final)
    (related : State → Other → Prop) (initial : related start image)
    (simulates : ∀ {state label next image}, related state image → admits state label →
      machine.step state label = some next →
      ∃ actions later, other.Reaches image actions later ∧ related next later) :
    ∃ actions later, other.Reaches image actions later ∧ related final later := by
  induction run with
  | refl => exact ⟨[], image, .refl, initial⟩
  | step _ admitted transition inductionHypothesis =>
      obtain ⟨actions, middle, earlier, matched⟩ := inductionHypothesis
      obtain ⟨more, later, rest, kept⟩ := simulates matched admitted transition
      exact ⟨actions ++ more, later, earlier.trans rest, kept⟩

/-- The rule for termination: where every state with a positive rank has a step that
lowers the rank, some run brings it to zero. -/
theorem exists_run_of_rank {P : State → Prop} (rank : State → Nat) (allowed : Label → Prop)
    (progress : ∀ state, P state → 0 < rank state → ∃ label next, allowed label ∧
      admits state label ∧ machine.step state label = some next ∧ P next ∧
      rank next < rank state)
    (holds : P start) :
    ∃ labels final, (∀ label ∈ labels, allowed label) ∧
      machine.Runs admits start labels final ∧ P final ∧ rank final = 0 := by
  induction height : rank start using Nat.strongRecOn generalizing start with
  | ind height inductionHypothesis =>
      rcases Nat.eq_zero_or_pos (rank start) with done | pending
      · exact ⟨[], start, by simp, .refl, holds, done⟩
      · obtain ⟨label, next, permitted, admitted, transition, kept, lower⟩ :=
          progress start holds pending
        obtain ⟨labels, final, permittedLater, run, keptLater, done⟩ :=
          inductionHypothesis (rank next) (height ▸ lower) kept rfl
        refine ⟨[label] ++ labels, final, ?_, (Runs.next .refl label admitted transition).trans run,
          keptLater, done⟩
        exact List.forall_mem_cons.mpr ⟨permitted, permittedLater⟩

/-! ### What happened in a run -/

/-- The run that took `labels` has a step of the kind `event`, and all its labels since
then are `quiet`. Whether a step is of the kind may depend on the labels before it. -/
inductive Since (machine : Machine State Label) (admits : State → Label → Prop) (start : State)
    (event : List Label → State → Label → State → Prop) (quiet : Label → Prop) :
    List Label → Prop where
  | now {labels current label next}
      (prior : machine.Runs admits start labels current)
      (admitted : admits current label)
      (transition : machine.step current label = some next)
      (happened : event labels current label next) :
      Since machine admits start event quiet (labels ++ [label])
  | later {labels label}
      (since : Since machine admits start event quiet labels)
      (still : quiet label) :
      Since machine admits start event quiet (labels ++ [label])

/-- The step that a `Since` is about. -/
theorem Since.happened {event : List Label → State → Label → State → Prop}
    {quiet : Label → Prop} (since : machine.Since admits start event quiet labels) :
    ∃ taken current label next, machine.Runs admits start taken current ∧
      admits current label ∧ event taken current label next := by
  induction since with
  | now prior admitted _ happened => exact ⟨_, _, _, _, prior, admitted, happened⟩
  | later _ _ inductionHypothesis => exact inductionHypothesis

/-- Where in the run that step is. -/
theorem Since.occurred {event : List Label → State → Label → State → Prop}
    {quiet : Label → Prop} (since : machine.Since admits start event quiet labels) :
    ∃ taken current label next rest, labels = taken ++ label :: rest ∧
      machine.Runs admits start taken current ∧ event taken current label next := by
  induction since with
  | now prior _ _ happened => exact ⟨_, _, _, _, [], rfl, prior, happened⟩
  | @later labels label _ _ inductionHypothesis =>
      obtain ⟨taken, current, earlier, next, rest, rfl, prior, happened⟩ := inductionHypothesis
      exact ⟨taken, current, earlier, next, rest ++ [label], by simp, prior, happened⟩

/-- After one more step, it is this step or the earlier ones that count. -/
theorem Runs.since_next_iff {event : List Label → State → Label → State → Prop}
    {quiet : Label → Prop} (run : machine.Runs admits start labels current) {label : Label}
    (admitted : admits current label) (transition : machine.step current label = some final) :
    machine.Since admits start event quiet (labels ++ [label]) ↔
      event labels current label final ∨
        machine.Since admits start event quiet labels ∧ quiet label := by
  constructor
  · intro since
    generalize taken : labels ++ [label] = all at since
    cases since with
    | now prior _ repeated happened =>
        obtain ⟨rfl, same⟩ := List.append_inj' taken rfl
        cases same
        cases run.unique prior
        cases Option.some.inj (transition.symm.trans repeated)
        exact .inl happened
    | later since still =>
        obtain ⟨rfl, same⟩ := List.append_inj' taken rfl
        cases same
        exact .inr ⟨since, still⟩
  · rintro (happened | ⟨since, still⟩)
    · exact .now run admitted transition happened
    · exact .later since still

/-- What an observer of the steps sees of an execution. -/
def observe {Observation : Type u} (machine : Machine State Label)
    (seen : State → Label → Option Observation) : State → List Label → List Observation
  | _, [] => []
  | state, label :: rest =>
      match machine.step state label with
      | some next => (seen state label).toList ++ machine.observe seen next rest
      | none => []

/-- What is seen of a run and of its continuation. -/
theorem Runs.observe_append {Observation : Type u} (seen : State → Label → Option Observation)
    (run : machine.Runs admits start labels current) (more : List Label) :
    machine.observe seen start (labels ++ more) =
      machine.observe seen start labels ++ machine.observe seen current more := by
  induction run generalizing more with
  | refl => rfl
  | @step labels current label next _ _ transition inductionHypothesis =>
      have last : machine.observe seen current [label] = (seen current label).toList := by
        simp [observe, transition]
      rw [List.append_assoc, List.singleton_append, inductionHypothesis (label :: more),
        inductionHypothesis [label], last, observe, transition, List.append_assoc]

/-- One more step adds what is seen of it. -/
theorem Runs.observe_next {Observation : Type u} (seen : State → Label → Option Observation)
    (run : machine.Runs admits start labels current) {label : Label}
    (transition : machine.step current label = some final) :
    machine.observe seen start (labels ++ [label]) =
      machine.observe seen start labels ++ (seen current label).toList := by
  rw [run.observe_append seen [label]]
  simp [observe, transition]

/-- A run seen through a projection, where the observer sees the steps of another machine. -/
theorem Runs.observed {Other Action : Type u} {other : Machine Other Action}
    {allowed : Other → Action → Prop} (view : State → Other)
    (seen : State → Label → Option Action) (run : machine.Runs admits start labels final)
    (silent : ∀ {state label next}, machine.step state label = some next →
      seen state label = none → view next = view state)
    (visible : ∀ {state label next action}, admits state label →
      machine.step state label = some next → seen state label = some action →
      allowed (view state) action ∧ other.step (view state) action = some (view next)) :
    other.Runs allowed (view start) (machine.observe seen start labels) (view final) := by
  induction run with
  | refl => exact .refl
  | @step labels current label next prior admitted transition inductionHypothesis =>
      rw [prior.observe_next seen transition]
      cases found : seen current label with
      | none =>
          rw [Option.toList_none, List.append_nil, silent transition found]
          exact inductionHypothesis
      | some action =>
          obtain ⟨permitted, moved⟩ := visible admitted transition found
          exact inductionHypothesis.next action permitted moved

/-- What is seen of a run is seen of one of its labels. -/
theorem mem_of_mem_observe {Observation : Type u} {seen : State → Label → Option Observation}
    {observation : Observation} (member : observation ∈ machine.observe seen start labels) :
    ∃ state, ∃ label ∈ labels, seen state label = some observation := by
  induction labels generalizing start with
  | nil => cases member
  | cons label rest inductionHypothesis =>
      simp only [observe] at member
      split at member
      · rcases List.mem_append.mp member with here | later
        · exact ⟨start, label, List.mem_cons_self, Option.mem_toList.mp here⟩
        · obtain ⟨state, other, found, visible⟩ := inductionHypothesis later
          exact ⟨state, other, List.mem_cons_of_mem _ found, visible⟩
      · cases member

/-- Execute a list of labels, failing at the first step that is not enabled or
not admitted. -/
def exec (machine : Machine State Label) (admits : State → Label → Prop)
    [∀ state label, Decidable (admits state label)] : State → List Label → Option State
  | state, [] => some state
  | state, label :: rest =>
      if admits state label then
        match machine.step state label with
        | some next => machine.exec admits next rest
        | none => none
      else none

/-- A computed execution is a run. -/
theorem Runs.ofExec [∀ state label, Decidable (admits state label)]
    (computed : machine.exec admits start labels = some final) :
    machine.Runs admits start labels final := by
  induction labels generalizing start with
  | nil =>
      simp only [exec, Option.some.injEq] at computed
      exact computed ▸ .refl
  | cons label rest inductionHypothesis =>
      simp only [exec] at computed
      split at computed
      · rename_i admitted
        cases transition : machine.step start label with
        | none => simp [transition] at computed
        | some next =>
            simp only [transition] at computed
            have single : machine.Runs admits start [label] next :=
              .step .refl admitted transition
            exact single.trans (inductionHypothesis computed)
      · cases computed

end Machine
end EspressoProxy.Semantics
