import Formula.Proofs.Evaluation.ConfinedTree
import Formula.Proofs.Rpn.Places

/-! # Evaluations echo each other

Started with older lines on its trail, an evaluation echoes one that has none: it leaves the same lines after
the older ones and ends alike, with the same value or the same failure up to its place. Only where there are
limits may it be cut off instead. What does not ask how often operands were forced, and does not go on after
a failure, echoes itself on operands that do.
-/
namespace Formula

namespace Failure

@[simp] theorem unplaced_locate (offset : Nat) (failure : Failure) :
    (failure.locate offset).unplaced = failure.unplaced := by
  cases failure with
  | expression cause place => cases place <;> rfl
  | _ => rfl

/-- Only a failure of an expression has a place to lose. -/
theorem unplaced_cases {failure other : Failure} (h : failure.unplaced = other.unplaced) :
    failure = other ∨ ∃ cause place offset,
      failure = .expression cause place ∧ other = .expression cause offset := by
  cases failure with
  | expression cause place =>
    cases other with
    | expression found offset =>
      obtain rfl : cause = found := (expression.inj h).1
      exact .inr ⟨_, place, offset, rfl, rfl⟩
    | _ => cases h
  | _ => cases other with
    | expression => cases h
    | _ => exact .inl h

theorem unplaced_within {failure other : Failure} (h : failure.unplaced = other.unplaced)
    (name : String) : (failure.within name).unplaced = (other.within name).unplaced := by
  rcases unplaced_cases h with rfl | ⟨cause, place, offset, rfl, rfl⟩ <;> rfl

theorem eq_tooDeep_of_unplaced {failure : Failure} (h : failure.unplaced = Failure.tooDeep.unplaced) :
    failure = .tooDeep := by
  rcases unplaced_cases h with rfl | ⟨_, _, _, -, h⟩
  · rfl
  · cases h

/-- The failure that an evaluation ends with. At the limit on nesting it is one of the expression. -/
def settled : Failure → Failure
  | .tooDeep => .of .nestedTooDeeply
  | failure => failure

theorem unplaced_settled {failure other : Failure} (h : failure.unplaced = other.unplaced) :
    failure.settled.unplaced = other.settled.unplaced := by
  obtain rfl | ⟨cause, place, offset, rfl, rfl⟩ := unplaced_cases h <;> rfl

end Failure

theorem Tree.evaluate_eq (settings : Settings) (tree : Tree) (state : State) :
    tree.evaluate settings state =
      ((tree.root.force settings settings.machine.frames state).1.mapError Failure.settled,
        (tree.root.force settings settings.machine.frames state).2) := by
  unfold Tree.evaluate
  obtain ⟨result, after⟩ := tree.root.force settings settings.machine.frames state
  cases result with
  | ok value => rfl
  | error failure => cases failure <;> rfl

structure State.Echoes (older : List Event) (s t : State) : Prop where
  environment : s.environment = t.environment
  memory : s.memory = t.memory
  trail : s.trail = t.trail ++ older

namespace State.Echoes

variable {older : List Event} {s t : State}

theorem refl (s : State) : s.Echoes [] s := ⟨rfl, rfl, by simp⟩

theorem leave (h : s.Echoes older t) (event : Event) :
    (s.leave event).Echoes older (t.leave event) :=
  ⟨h.environment, h.memory, by simp [State.leave, h.trail]⟩

theorem countForce (h : s.Echoes older t) (id other : Nat) :
    (s.countForce id).Echoes older (t.countForce other) := ⟨h.environment, h.memory, h.trail⟩

theorem resetForces (h : s.Echoes older t) (id other : Nat) :
    (s.resetForces id).Echoes older (t.resetForces other) := ⟨h.environment, h.memory, h.trail⟩

theorem countForce_left (h : s.Echoes older t) (id : Nat) : (s.countForce id).Echoes older t :=
  ⟨h.environment, h.memory, h.trail⟩

end State.Echoes

/-- Both end with the same value, or with the same failure up to its place, in states that are the same
after the older lines; or, if there are limits, the left side is cut off. -/
inductive Echoes {α : Type} (limited : Prop) (older : List Event) :
    Except Failure α × State → Except Failure α × State → Prop
  | deep {s : State} {right : Except Failure α × State} (h : limited) :
      Echoes limited older (.error .tooDeep, s) right
  | ok {value : α} {s t : State} (h : s.Echoes older t) :
      Echoes limited older (.ok value, s) (.ok value, t)
  | error {failure other : Failure} {s t : State} (hfailure : failure.unplaced = other.unplaced)
      (h : s.Echoes older t) : Echoes limited older (.error failure, s) (.error other, t)

variable {limited : Prop} {older : List Event} {s t : State}

theorem Echoes.located_left {left right : Outcome} (h : Echoes limited older left right) (offset : Nat) :
    Echoes limited older (Outcome.located offset left) right := by
  cases h with
  | deep h => exact .deep h
  | ok h => exact .ok h
  | error hfailure h => exact .error (by simp [hfailure]) h

def Plan.Direct : Plan → Prop
  | .done _ | .operand _ | .stray _ | .fail _ => True
  | .force _ next | .read _ next => ∀ value, (next value).Direct
  | .bind name value next => (next (value.boundTo name)).Direct
  | .text value next => (next value.string).Direct
  | .log _ next | .print _ next | .remember _ _ next => next.Direct
  | .retrieve _ next => ∀ memory, (next memory).Direct
  | .preserving _ body next => body.Direct ∧ ∀ value, (next value).Direct
  | .countForces .. | .catching .. => False

namespace Plan

/-- What is confined to all names, but for some that it may need, is direct: every value that it meets
is within the names of some list. -/
theorem direct_of_confined {operands : Nat} {reports : Failure → Prop} {held : List String}
    (needed : List String) {plan : Plan}
    (h : ∀ names, needed ⊆ names → plan.Confined names operands reports held) : plan.Direct := by
  have hwithin {names needed : List String} {value : Value}
      (hnames : value.binding.toList ++ needed ⊆ names) : value.Within names ∧ needed ⊆ names :=
    ⟨fun name hname => hnames (List.mem_append_left _ (by simpa using hname)),
      fun _ hname => hnames (List.mem_append_right _ hname)⟩
  induction plan generalizing held needed with
  | done | operand | stray | fail => trivial
  | force index next ih | read name next ih =>
    intro value
    have hnext : ∀ names, value.binding.toList ++ needed ⊆ names →
        (next value).Confined names operands reports held := by
      intro names hnames
      obtain ⟨hvalue, hneeded⟩ := hwithin hnames
      exact (h names hneeded).2 hvalue
    exact ih value _ hnext
  | bind name value next ih =>
    have hnext : ∀ names, needed ⊆ names →
        (next (value.boundTo name)).Confined names operands reports held :=
      fun names hnames => (h names hnames).2
    exact ih _ needed hnext
  | text value next ih =>
    have hnext : ∀ names, needed ⊆ names → (next value.string).Confined names operands reports held := h
    exact ih _ needed hnext
  | log line next ih | print line next ih =>
    have hnext : ∀ names, needed ⊆ names → next.Confined names operands reports held := h
    exact ih needed hnext
  | preserving saved body next ihBody ihNext =>
    have hbody : ∀ names, needed ⊆ names → body.Confined names operands reports (saved ++ held) :=
      fun names hnames => (h names hnames).1
    refine ⟨ihBody needed hbody, fun value => ?_⟩
    have hnext : ∀ names, value.binding.toList ++ needed ⊆ names →
        (next value).Confined names operands reports held := by
      intro names hnames
      obtain ⟨hvalue, hneeded⟩ := hwithin hnames
      exact (h names hneeded).2 hvalue
    exact ihNext value _ hnext
  | countForces | catching | retrieve | remember => exact (h needed (List.Subset.refl _)).elim

end Plan

def Behaviour.Direct (operands : Nat) : Behaviour → Prop
  | .eager plan => ∀ settings values, values.length = operands → (plan settings values).Direct
  | .lazy plan => ∀ settings, (plan settings operands).Direct

theorem Behaviour.Confined.direct {operands : Nat} {behaviour : Behaviour}
    (h : behaviour.Confined operands) : behaviour.Direct operands := by
  cases behaviour with
  | eager plan =>
    intro settings values hlength
    -- The values that are there may carry names; a list of these is where the plan is confined.
    have hplan : ∀ names, values.flatMap (·.binding.toList) ⊆ names →
        (plan settings values).Confined names 0 Failure.Reported [] := by
      intro names hnames
      refine h hlength fun value hvalue name hname => ?_
      exact hnames (List.mem_flatMap.mpr ⟨value, hvalue, by simpa using hname⟩)
    exact Plan.direct_of_confined _ hplan
  | lazy plan =>
    intro settings
    have hplan : ∀ names, [] ⊆ names →
        (plan settings operands).Confined names operands Failure.Unlocated [] :=
      fun names _ => @h names settings
    exact Plan.direct_of_confined _ hplan

namespace Simulation

/-- The left side leaves its lines after the older ones, and is cut off only if there are limits. -/
def echoing (limited : Prop) (older : List Event) : Simulation where
  states _ s t := s.Echoes older t
  fine _ := True
  reports failure other := failure.unplaced = other.unplaced
  raises failure other := failure.unplaced = other.unplaced
  places failure other := failure.unplaced = other.unplaced
  ids _ _ := True
  offsets _ _ := True
  strays := True
  counts := False
  limited := True
  cuts := limited
  leave h event := h.leave event
  count h _ := h.countForce _ _
  reset h _ := h.resetForces _ _
  forces hcounts := hcounts.elim
  succ h := h
  hold _ h := h
  restore names h hinner := ⟨by rw [hinner.environment, h.environment], hinner.memory, hinner.trail⟩
  within h name := Failure.unplaced_within h name
  stray _ _ := rfl
  raised h := h
  located h _ := by simp [h]
  full _ := rfl

theorem echoing_reads (held : List String) (name : String) :
    (echoing limited older).Reads (echoing limited older).raises held name := by
  intro s t h
  have hafter : State.Echoes older { s with environment := (s.environment.read name).2 }
      { t with environment := (t.environment.read name).2 } :=
    ⟨by rw [h.environment], h.memory, h.trail⟩
  rw [h.environment] at hafter ⊢
  cases (t.environment.read name).1 with
  | ok value => exact .ok trivial hafter
  | error failure => exact .error rfl hafter

theorem echoing_admits (operands : Nat) :
    (echoing limited older).Admits (echoing limited older).raises operands (fun _ => True)
      fun _ plan => plan.Direct where
  done _ := trivial
  stray _ := trivial
  fail _ := rfl
  operand _ := trivial
  force h := ⟨trivial, fun value _ => h value⟩
  countForces h := h.elim
  missing _ _ := rfl
  placed _ _ _ h := h
  full _ := rfl
  read h _ := ⟨echoing_reads _ _, fun value _ => h value⟩
  bind h _ := ⟨fun _ _ hst => ⟨by rw [hst.environment], hst.memory, hst.trail⟩, h⟩
  text h := h
  log h := h
  print h := h
  retrieve h := ⟨fun _ _ hst => by rw [hst.memory], h⟩
  remember h := ⟨fun _ _ hst => ⟨hst.environment, by rw [hst.memory], hst.trail⟩, h⟩
  preserving h := ⟨h.1, fun value _ => h.2 value⟩
  catching h := h.elim

theorem echoing_behaves (settings : Settings) {operands : Nat} {behaviour : Behaviour}
    (h : behaviour.Direct operands) : (echoing limited older).Behaves settings operands behaviour := by
  cases behaviour with
  | eager plan => exact fun values hlength _ => ⟨_, _, echoing_admits 0, h settings values hlength⟩
  | lazy plan => exact ⟨_, _, echoing_admits operands, h settings⟩

theorem Ends.echoes {α : Type} {good : α → Prop} {held : List String} {left right : Except Failure α × State}
    (h : (echoing limited older).Ends (echoing limited older).places good held left right) :
    Echoes limited older left right := by
  cases h with
  | cut h => exact .deep h
  | ok _ h => exact .ok h
  | error hfailure h => exact .error hfailure h

end Simulation

end Formula
