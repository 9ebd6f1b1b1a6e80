import Formula.Proofs.Environment.Cells
import Formula.Proofs.Evaluation.Simulation
import Formula.Proofs.Failure.Place

/-! # Confined plans

Two states match under some names if their entries hold values, if they read the same under these names,
and if they have left the same lines. A plan is confined to the names if it reads and binds no others,
apart from those it puts back, and ends with no value that is bound to another one. Run in matching
states it ends alike, in matching states again, and changes no cell under another name. With one state
on both sides this is about a single run.
-/
namespace Formula

def Value.Within (names : List String) (value : Value) : Prop := ∀ name ∈ value.binding, name ∈ names

theorem Value.within_of_binding_eq_none {names : List String} {value : Value}
    (h : value.binding = none) : value.Within names := by
  intro name hname
  rw [h] at hname
  cases hname

theorem Value.within_boundTo {names : List String} {name : String} (h : name ∈ names) (value : Value) :
    (value.boundTo name).Within names := by
  intro other hother
  rw [Value.binding_boundTo] at hother
  obtain rfl := Option.some.inj hother
  exact h

def Environment.SameOutside (names : List String) (before after : Environment) : Prop :=
  ∀ ⦃name⦄, name ∉ names → after.cell? name = before.cell? name

namespace Environment.SameOutside

variable {names more : List String} {first second third : Environment}

theorem refl (names : List String) (env : Environment) : env.SameOutside names env := fun _ _ => rfl

theorem mono (h : first.SameOutside names second) (hnames : names ⊆ more) :
    first.SameOutside more second := fun _ hname => h fun hmem => hname (hnames hmem)

theorem trans (h : first.SameOutside names second) (k : second.SameOutside names third) :
    first.SameOutside names third := fun _ hname => (k hname).trans (h hname)

theorem bind {name : String} (h : name ∈ names) (env : Environment) (value : Value) :
    env.SameOutside names (env.bind name value) :=
  fun _ hother => Environment.cell?_bind_of_ne (ne_of_mem_of_not_mem h hother).symm env value

theorem read {name : String} (h : name ∈ names) (env : Environment) :
    env.SameOutside names (env.read name).2 :=
  fun _ hother => Environment.cell?_read_of_ne (ne_of_mem_of_not_mem h hother).symm env

/-- Names that are put back count as unchanged. -/
theorem restore_save {held : List String} (h : first.SameOutside names second)
    (k : first.SameOutside (held ++ names) third) :
    first.SameOutside names (third.restore (second.save held)) := by
  intro name hname
  rw [Environment.cell?_restore_save]
  split
  next => exact h hname
  next hheld => exact k (by simp [hheld, hname])

end Environment.SameOutside

/-- Entries hold values, reads under the names are the same, and so are the lines. -/
structure State.Matches (names : List String) (s t : State) : Prop where
  left : s.environment.Constant
  right : t.environment.Constant
  stored : ∀ ⦃name⦄, name ∈ names → s.environment.stored name = t.environment.stored name
  trail : s.trail = t.trail

namespace State.Matches

variable {names : List String} {s t u v : State}

theorem leave (h : s.Matches names t) (event : Event) :
    (s.leave event).Matches names (t.leave event) :=
  ⟨h.left, h.right, h.stored, congrArg (event :: ·) h.trail⟩

theorem read (h : s.Matches names t) (name : String) :
    State.Matches names { s with environment := (s.environment.read name).2 }
      { t with environment := (t.environment.read name).2 } where
  left := h.left.read name
  right := h.right.read name
  stored other hother := by
    dsimp only
    rw [Environment.stored_read, Environment.stored_read]
    exact h.stored hother
  trail := h.trail

theorem bind (h : s.Matches names t) (name : String) (value : Value) :
    State.Matches names { s with environment := s.environment.bind name value }
      { t with environment := t.environment.bind name value } where
  left := h.left.bind name value
  right := h.right.bind name value
  stored other hother := by
    by_cases heq : other = name
    · rw [heq, Environment.stored_bind_self, Environment.stored_bind_self]
    · rw [Environment.stored_bind_of_ne heq, Environment.stored_bind_of_ne heq]
      exact h.stored hother
  trail := h.trail

theorem restore (h : s.Matches names t) (k : u.Matches names v) (held : List String) :
    State.Matches names { u with environment := u.environment.restore (s.environment.save held) }
      { v with environment := v.environment.restore (t.environment.save held) } where
  left := k.left.restore_save h.left held
  right := k.right.restore_save h.right held
  stored name hname := by
    by_cases hheld : name ∈ held
    · have hback : ∀ before env : Environment,
          (env.restore (before.save held)).stored name = before.stored name := fun before env =>
        Environment.stored_congr (by rw [Environment.cell?_restore_save, if_pos hheld])
      exact (hback _ _).trans ((h.stored hname).trans (hback _ _).symm)
    · have hkept : ∀ before env : Environment,
          (env.restore (before.save held)).stored name = env.stored name := fun before env =>
        Environment.stored_congr (by rw [Environment.cell?_restore_save, if_neg hheld])
      exact (hkept _ _).trans ((k.stored hname).trans (hkept _ _).symm)
  trail := k.trail

end State.Matches

/-- The states match, and since the two environments only cells under `changed` names were changed. -/
structure Reached (names changed : List String) (left right : Environment) (s t : State) : Prop where
  matched : s.Matches names t
  left : left.SameOutside changed s.environment
  right : right.SameOutside changed t.environment

namespace Reached

variable {names changed : List String} {left right : Environment} {s t u v : State}

theorem refl (h : s.Matches names t) : Reached names changed s.environment t.environment s t :=
  ⟨h, .refl _ _, .refl _ _⟩

theorem bind {name : String} (h : Reached names changed left right s t) (hname : name ∈ changed)
    (value : Value) :
    Reached names changed left right { s with environment := s.environment.bind name value }
      { t with environment := t.environment.bind name value } :=
  ⟨h.matched.bind name value, h.left.trans (.bind hname _ value), h.right.trans (.bind hname _ value)⟩

/-- Reading a name in matching states gives one value in both. -/
theorem exists_read {name : String} (h : Reached names changed left right s t) (hname : name ∈ names)
    (hchanged : names ⊆ changed) :
    ∃ value first second, s.environment.read name = (.ok value, first) ∧
      t.environment.read name = (.ok value, second) ∧ value.Within names ∧
      Reached names changed left right { s with environment := first } { t with environment := second } := by
  have hleft := h.matched.left.read_eq name
  have hright := h.matched.right.read_eq name
  rw [← h.matched.stored hname] at hright
  refine ⟨_, _, _, Prod.ext hleft rfl, Prod.ext hright rfl, ?_, ?_⟩
  · exact Value.within_boundTo hname _
  · exact ⟨h.matched.read name, h.left.trans (.read (hchanged hname) _),
      h.right.trans (.read (hchanged hname) _)⟩

theorem restore {held : List String} (h : Reached names changed left right s t)
    (k : Reached names (held ++ changed) left right u v) :
    Reached names changed left right
      { u with environment := u.environment.restore (s.environment.save held) }
      { v with environment := v.environment.restore (t.environment.save held) } :=
  ⟨h.matched.restore k.matched held, h.left.restore_save k.left, h.right.restore_save k.right⟩

end Reached

inductive Ends {α : Type} (good : α → Prop) (fine : Failure → Prop) (reached : State → State → Prop) :
    Except Failure α × State → Except Failure α × State → Prop
  | ok {value : α} {s t : State} (hvalue : good value) (h : reached s t) :
      Ends good fine reached (.ok value, s) (.ok value, t)
  | error {failure : Failure} {s t : State} (hfailure : fine failure) (h : reached s t) :
      Ends good fine reached (.error failure, s) (.error failure, t)

namespace Ends

variable {α : Type} {good : α → Prop} {fine other : Failure → Prop} {names changed : List String}
  {e f : Environment} {s t : State} {left right : Except Failure α × State}

theorem imp_failure {reached : State → State → Prop} (h : Ends good fine reached left right)
    (hfine : ∀ failure, fine failure → other failure) : Ends good other reached left right := by
  cases h with
  | ok hvalue h => exact .ok hvalue h
  | error hfailure h => exact .error (hfine _ hfailure) h

theorem same {reached : State → State → Prop} (h : Ends good fine reached left right) :
    left.1 = right.1 := by
  cases h <;> rfl

theorem yields {reached : State → State → Prop} (h : Ends good fine reached left right) :
    Yields good fine left.1 := by
  cases h with
  | ok hvalue _ => exact .ok hvalue
  | error hfailure _ => exact .error hfailure

theorem reaches {reached : State → State → Prop} (h : Ends good fine reached left right) :
    reached left.2 right.2 := by
  cases h with
  | ok _ h => exact h
  | error _ h => exact h

end Ends

def ForcesWithin (names : List String) (fine : Failure → Prop)
    (force : State → Except Failure Value × State) : Prop :=
  ∀ ⦃s t⦄, s.Matches names t →
    Ends (Value.Within names) fine (Reached names names s.environment t.environment) (force s) (force t)

namespace Plan

/-- The plan reads none but the `names` and binds none but these and the `held` ones, which somebody
puts back; it ends with values within the names, forces operands that are there, and reports only
such failures. It neither counts forces nor remembers anything. -/
def Confined (names : List String) (operands : Nat) (reports : Failure → Prop) :
    (held : List String) → Plan → Prop
  | _, .done value => value.Within names
  | _, .operand index => index < operands
  | _, .fail failure => reports failure
  | held, .force index next =>
    index < operands ∧ ∀ ⦃value⦄, value.Within names → (next value).Confined names operands reports held
  | held, .read name next =>
    name ∈ names ∧ ∀ ⦃value⦄, value.Within names → (next value).Confined names operands reports held
  | held, .bind name value next =>
    name ∈ held ++ names ∧ (next (value.boundTo name)).Confined names operands reports held
  | held, .text value next => (next value.string).Confined names operands reports held
  | held, .log _ next | held, .print _ next => next.Confined names operands reports held
  | held, .preserving saved body next =>
    body.Confined names operands reports (saved ++ held) ∧
      ∀ ⦃value⦄, value.Within names → (next value).Confined names operands reports held
  | _, .stray _ | _, .countForces .. | _, .retrieve .. | _, .remember .. | _, .catching .. => False

end Plan

/-- On this number of operands the plans of the behaviour are confined to whatever names the values that
it sees are within. -/
def Behaviour.Confined (operands : Nat) : Behaviour → Prop
  | .eager plan => ∀ ⦃names settings values⦄, values.length = operands →
      (∀ value ∈ values, value.Within names) →
        (plan settings values).Confined names 0 Failure.Reported []
  | .lazy plan => ∀ ⦃names settings⦄,
      (plan settings operands).Confined names operands Failure.Unlocated []

namespace Simulation

def confinement (names : List String) (bound : Nat) (limited : Bool) (left right : Environment) :
    Simulation where
  states held s t := Reached names (held ++ names) left right s t
  fine := Value.Within names
  reports failure other := failure = other ∧ (failure.Reported ∨ limited = true ∧ failure = .tooDeep)
  raises failure other := failure = other ∧ (failure.Unlocated ∨ failure.Placed bound limited)
  places failure other := failure = other ∧ failure.Placed bound limited
  ids _ _ := True
  offsets offset place := offset = place ∧ offset < bound
  strays := False
  counts := False
  limited := limited = true
  cuts := False
  leave h event := ⟨h.matched.leave event, h.left, h.right⟩
  count h _ := ⟨⟨h.matched.left, h.matched.right, h.matched.stored, h.matched.trail⟩, h.left, h.right⟩
  reset h _ := ⟨⟨h.matched.left, h.matched.right, h.matched.stored, h.matched.trail⟩, h.left, h.right⟩
  forces hcounts := hcounts.elim
  succ h := h
  hold _ h := by
    rw [List.append_assoc]
    exact ⟨h.matched, h.left.mono (List.subset_append_right ..), h.right.mono (List.subset_append_right ..)⟩
  restore names h hinner := by
    rw [List.append_assoc] at hinner
    exact h.restore hinner
  within h name := by
    obtain ⟨rfl, hreported | ⟨hlimited, rfl⟩⟩ := h
    · exact ⟨rfl, .inl (hreported name)⟩
    · exact ⟨rfl, .inr (.inr ⟨hlimited, rfl⟩)⟩
  stray hstrays := hstrays.elim
  raised h := ⟨h.1, .inr h.2⟩
  located h hoffset := by
    obtain ⟨rfl, hfailure⟩ := h
    obtain ⟨rfl, hbound⟩ := hoffset
    exact ⟨rfl, Failure.placed_locate hfailure hbound⟩
  full hlimited := ⟨rfl, .inr ⟨hlimited, rfl⟩⟩

variable {names : List String} {bound : Nat} {limited : Bool} {e f : Environment}

/-- Reading one of the names cannot fail, as all entries hold values. -/
theorem confinement_reads (fails : Failure → Failure → Prop) (held : List String) {name : String}
    (hname : name ∈ names) : (confinement names bound limited e f).Reads fails held name := by
  intro s t h
  obtain ⟨value, first, second, hleft, hright, hvalue, hreached⟩ :=
    Reached.exists_read h hname (List.subset_append_right held names)
  rw [hleft, hright]
  exact .ok hvalue hreached

theorem confinement_admits {fails : Failure → Failure → Prop} {reports : Failure → Prop} {operands : Nat}
    (hreports : ∀ failure, reports failure → fails failure failure)
    (hplaced : 0 < operands →
      ∀ failure other, (confinement names bound limited e f).places failure other → fails failure other)
    (hfull : limited = true → fails .tooDeep .tooDeep) :
    (confinement names bound limited e f).Admits fails operands (· < operands) fun held plan =>
      plan.Confined names operands reports held where
  done h := h
  stray h := h
  fail h := hreports _ h
  operand h := h
  force h := h
  countForces h := h.elim
  missing hindex hmissing := absurd hindex (Nat.not_lt_of_ge hmissing)
  placed hpos _ _ h := hplaced hpos _ _ h
  full := hfull
  read h _ := ⟨confinement_reads fails _ h.1, h.2⟩
  bind {held _ _ _ _} h hheld := by
    refine ⟨fun _ _ hreached => Reached.bind hreached ?_ _, h.2⟩
    exact List.append_subset.mpr ⟨List.Subset.trans hheld (List.subset_append_left ..), List.subset_append_right ..⟩ h.1
  text h := h
  log h := h
  print h := h
  retrieve h := h.elim
  remember h := h.elim
  preserving h := h
  catching h := h.elim

theorem confinement_behaves (settings : Settings) {operands : Nat} {behaviour : Behaviour}
    (h : behaviour.Confined operands) :
    (confinement names bound limited e f).Behaves settings operands behaviour := by
  cases behaviour with
  | eager plan =>
    intro values hlength hvalues
    refine ⟨_, _, confinement_admits (fun _ hreported => ⟨rfl, .inl hreported⟩) (fun hpos => ?_)
      (fun hlimited => ⟨rfl, .inr ⟨hlimited, rfl⟩⟩), h hlength hvalues⟩
    exact absurd hpos (Nat.lt_irrefl 0)
  | lazy plan =>
    exact ⟨_, _, confinement_admits (fun _ hunlocated => ⟨rfl, .inl hunlocated⟩)
      (fun _ _ _ hplaced => ⟨hplaced.1, .inr hplaced.2⟩)
      (fun hlimited => ⟨rfl, .inr (.inr ⟨hlimited, rfl⟩)⟩), @h names settings⟩

theorem Ends.confined {left right : Outcome}
    (h : (confinement names bound limited e f).Ends (confinement names bound limited e f).places
      (Value.Within names) [] left right) :
    Formula.Ends (Value.Within names) (Failure.Placed bound limited) (Reached names names e f) left right := by
  cases h with
  | cut h => exact h.elim
  | ok hvalue h => exact .ok hvalue h
  | error hfailure h =>
    obtain ⟨rfl, hplaced⟩ := hfailure
    exact .error hplaced h

end Simulation

end Formula
