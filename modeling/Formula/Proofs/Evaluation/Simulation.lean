import Formula.Evaluation
import Mathlib.Data.List.Forall2

/-! # Simulations

Two evaluations go in step where a relation between their states is kept by every step: by counting a force,
by leaving a line, by what the plans read, bind and put back. Then both end with the same value, or with
failures that are related, in states that are related again. A simulation lists what the steps have to keep;
that plans and behaviours keep it, on operands that do, follows here once for all of them.
-/
namespace Formula

/-- There is at most as much room on the left. -/
def Narrower (room other : Option Nat) : Prop :=
  ∀ bound, other = some bound → ∃ narrow, room = some narrow ∧ narrow ≤ bound

namespace Narrower

variable {room other next : Option Nat}

theorem refl (room : Option Nat) : Narrower room room := fun bound h => ⟨bound, h, Nat.le_refl bound⟩

theorem trans (h : Narrower next room) (hroom : Narrower room other) : Narrower next other := by
  intro bound hbound
  obtain ⟨middle, hmiddle, hle⟩ := hroom bound hbound
  obtain ⟨narrow, hnarrow, hmore⟩ := h middle hmiddle
  exact ⟨narrow, hnarrow, Nat.le_trans hmore hle⟩

theorem of_deeper (hnext : deeper room = some next) : Narrower next room := by
  intro bound hbound
  subst hbound
  cases bound with
  | zero => cases hnext
  | succ bound =>
    obtain rfl := Option.some.inj hnext
    exact ⟨bound, rfl, Nat.le_succ bound⟩

theorem inside_self (room : Option Nat) : Narrower (inside room) room := by
  intro bound hbound
  exact ⟨bound - 2, by rw [hbound]; rfl, Nat.sub_le bound 2⟩

theorem inside (h : Narrower room other) : Narrower (inside room) (inside other) := by
  intro bound hbound
  obtain ⟨wide, rfl, rfl⟩ := Option.map_eq_some_iff.mp hbound
  obtain ⟨narrow, rfl, hle⟩ := h wide rfl
  exact ⟨narrow - 2, rfl, Nat.sub_le_sub_right hle 2⟩

theorem exists_deeper (h : Narrower room other) (hnext : deeper room = some next) :
    ∃ further, deeper other = some further ∧ Narrower next further := by
  cases other with
  | none => exact ⟨none, rfl, nofun⟩
  | some bound =>
    obtain ⟨narrow, rfl, hnarrow⟩ := h bound rfl
    cases narrow with
    | zero => cases hnext
    | succ narrow =>
      obtain rfl := Option.some.inj hnext
      obtain ⟨bound, rfl⟩ := Nat.exists_eq_add_of_lt hnarrow
      exact ⟨some (narrow + bound), rfl, fun _ hbound => ⟨narrow, rfl, by
        obtain rfl := Option.some.inj hbound
        omega⟩⟩

theorem fits (h : Narrower room other) {frames : Nat} (hfits : fits frames room = true) :
    fits frames other = true := by
  cases other with
  | none => rfl
  | some bound =>
    obtain ⟨narrow, rfl, hle⟩ := h bound rfl
    have hnarrow : frames ≤ narrow := of_decide_eq_true hfits
    exact decide_eq_true (Nat.le_trans hnarrow hle)

end Narrower

theorem isSome_of_deeper {room next : Option Nat} (h : deeper room = some next) :
    next.isSome = room.isSome := by
  rcases room with _ | _ | room
  · cases h
    rfl
  · cases h
  · cases h
    rfl

theorem isSome_of_deeper_eq_none {room : Option Nat} (h : deeper room = none) : room.isSome = true := by
  cases room with
  | none => cases h
  | some room => rfl

theorem isSome_inside (room : Option Nat) : (inside room).isSome = room.isSome := Option.isSome_map

theorem isSome_of_not_fits {frames : Nat} {room : Option Nat} (h : fits frames room = false) :
    room.isSome = true := by
  cases room with
  | none => cases h
  | some room => rfl

namespace Failure

variable {failure other : Failure}

theorem within_congr (h : failure = other) (name : String) : failure.within name = other.within name :=
  congrArg (within name) h

theorem locate_congr (h : failure = other) {offset place : Nat} (hoffset : offset = place) :
    failure.locate offset = other.locate place := by rw [h, hoffset]

end Failure

/-- What two evaluations keep, step by step. -/
structure Simulation where
  /-- The states on both sides, while the entries of the `held` names are to be put back by somebody. -/
  states : (held : List String) → State → State → Prop
  /-- The values that come up. -/
  fine : Value → Prop
  /-- The failures of eager plans, those of behaviours, and those of nodes. -/
  reports : Failure → Failure → Prop
  raises : Failure → Failure → Prop
  places : Failure → Failure → Prop
  ids : Nat → Nat → Prop
  offsets : Nat → Nat → Prop
  /-- Plans may end with something that is no value. -/
  strays : Prop
  /-- Operands were forced equally often on both sides. -/
  counts : Prop
  /-- The stacks may be full, on both sides at once. -/
  limited : Prop
  /-- The stack may be full on the left alone. -/
  cuts : Prop
  leave : ∀ {held s t}, states held s t → ∀ event, states held (s.leave event) (t.leave event)
  count : ∀ {held s t id other}, states held s t → ids id other →
    states held (s.countForce id) (t.countForce other)
  reset : ∀ {held s t id other}, states held s t → ids id other →
    states held (s.resetForces id) (t.resetForces other)
  forces : ∀ {held s t id other}, counts → states held s t → ids id other →
    s.forcesOf id = t.forcesOf other
  succ : ∀ {id other}, ids id other → ids (id + 1) (other + 1)
  hold : ∀ {held s t} (names), states held s t → states (names ++ held) s t
  restore : ∀ {held s t inner last} (names : List String), states held s t →
    states (names ++ held) inner last →
      states held { inner with environment := inner.environment.restore (s.environment.save names) }
        { last with environment := last.environment.restore (t.environment.save names) }
  within : ∀ {failure other}, reports failure other → ∀ name, raises (failure.within name) (other.within name)
  stray : strays → ∀ failure, raises failure failure
  raised : ∀ {failure other}, places failure other → raises failure other
  located : ∀ {failure other offset place}, raises failure other → offsets offset place →
    places (failure.locate offset) (other.locate place)
  full : limited → places .tooDeep .tooDeep

namespace Simulation

/-- The rooms on both sides: the same, or less on the left. -/
def Rooms (sim : Simulation) (room further : Option Nat) : Prop :=
  (room = further ∧ (room.isSome = true → sim.limited)) ∨ sim.cuts ∧ Narrower room further

/-- Both sides end with the same value, which is `good`, or with failures that are related, in related
states; or the left side is cut off. -/
inductive Ends (sim : Simulation) {α : Type} (fails : Failure → Failure → Prop) (good : α → Prop)
    (held : List String) : Except Failure α × State → Except Failure α × State → Prop
  | cut {s : State} {right : Except Failure α × State} (h : sim.cuts) :
      Ends sim fails good held (.error .tooDeep, s) right
  | ok {value : α} {s t : State} (hvalue : good value) (h : sim.states held s t) :
      Ends sim fails good held (.ok value, s) (.ok value, t)
  | error {failure other : Failure} {s t : State} (hfailure : fails failure other)
      (h : sim.states held s t) : Ends sim fails good held (.error failure, s) (.error other, t)

structure Operands (sim : Simulation) (left right : Operand) : Prop where
  force : ∀ ⦃room further⦄, sim.Rooms room further → ∀ ⦃held s t⦄, sim.states held s t →
    sim.Ends sim.places sim.fine held (left.force room s) (right.force further t)
  forces : sim.counts → ∀ ⦃held s t⦄, sim.states held s t → left.forces s = right.forces t

def Reads (sim : Simulation) (fails : Failure → Failure → Prop) (held : List String) (name : String) :
    Prop :=
  ∀ ⦃s t⦄, sim.states held s t →
    sim.Ends fails sim.fine held
      ((s.environment.read name).1, { s with environment := (s.environment.read name).2 })
      ((t.environment.read name).1, { t with environment := (t.environment.read name).2 })

/-- Each of these plans, on so many operands, takes a first step that the simulation keeps, and goes on with
plans of which the same is true. It looks only at operands that it `asks` for. -/
structure Admits (sim : Simulation) (fails : Failure → Failure → Prop) (operands : Nat) (asks : Nat → Prop)
    (plans : (held : List String) → Plan → Prop) : Prop where
  done : ∀ {held value}, plans held (.done value) → sim.fine value
  stray : ∀ {held kind}, plans held (.stray kind) → sim.strays
  fail : ∀ {held failure}, plans held (.fail failure) → fails failure failure
  operand : ∀ {held index}, plans held (.operand index) → asks index
  force : ∀ {held index next}, plans held (.force index next) →
    asks index ∧ ∀ ⦃value⦄, sim.fine value → plans held (next value)
  countForces : ∀ {held index next}, plans held (.countForces index next) →
    asks index ∧ (index < operands → sim.counts ∧ ∀ count, plans held (next count))
  missing : ∀ {index}, asks index → operands ≤ index → fails (.fault .missingItem) (.fault .missingItem)
  placed : 0 < operands → ∀ {failure other}, sim.places failure other → fails failure other
  full : sim.limited → fails .tooDeep .tooDeep
  read : ∀ {held outer name next}, plans held (.read name next) → held ⊆ outer →
    sim.Reads fails outer name ∧ ∀ ⦃value⦄, sim.fine value → plans held (next value)
  bind : ∀ {held outer name value next}, plans held (.bind name value next) → held ⊆ outer →
    (∀ ⦃s t⦄, sim.states outer s t → sim.states outer
      { s with environment := s.environment.bind name value }
      { t with environment := t.environment.bind name value }) ∧ plans held (next (value.boundTo name))
  text : ∀ {held value next}, plans held (.text value next) → plans held (next value.string)
  log : ∀ {held line next}, plans held (.log line next) → plans held next
  print : ∀ {held line next}, plans held (.print line next) → plans held next
  retrieve : ∀ {held outer name next}, plans held (.retrieve name next) →
    (∀ ⦃s t⦄, sim.states outer s t → s.memory.get? name = t.memory.get? name) ∧
      ∀ memory, plans held (next memory)
  remember : ∀ {held outer name value next}, plans held (.remember name value next) →
    (∀ ⦃s t⦄, sim.states outer s t → sim.states outer
      { s with memory := s.memory.insert name value } { t with memory := t.memory.insert name value }) ∧
      plans held next
  preserving : ∀ {held names body next}, plans held (.preserving names body next) →
    plans (names ++ held) body ∧ ∀ ⦃value⦄, sim.fine value → plans held (next value)
  catching : ∀ {held body next}, plans held (.catching body next) →
    plans held body ∧ (∀ ⦃value⦄, sim.fine value → plans held (next (.ok value))) ∧ ¬ sim.cuts ∧
      ∀ ⦃failure other⦄, fails failure other → failure = other ∧ plans held (next (.error failure))

def Keeps (sim : Simulation) (fails : Failure → Failure → Prop) (operands : Nat) (plan : Plan) : Prop :=
  ∃ asks plans, sim.Admits fails operands asks plans ∧ plans [] plan

def Behaves (sim : Simulation) (settings : Settings) (operands : Nat) : Behaviour → Prop
  | .eager plan => ∀ ⦃values : List Value⦄, values.length = operands → (∀ value ∈ values, sim.fine value) →
      sim.Keeps sim.reports 0 (plan settings values)
  | .lazy plan => sim.Keeps sim.raises operands (plan settings operands)

def Replies (sim : Simulation) : Reply → Prop
  | .value value => sim.fine value
  | .stray _ => sim.strays

variable {sim : Simulation} {room further next : Option Nat}

namespace Rooms

theorem unbounded : sim.Rooms none none := .inl ⟨rfl, nofun⟩

theorem inside (h : sim.Rooms room further) : sim.Rooms (inside room) (inside further) := by
  obtain ⟨rfl, hlimited⟩ | ⟨hcuts, hnarrower⟩ := h
  · exact .inl ⟨rfl, fun hsome => hlimited (isSome_inside _ ▸ hsome)⟩
  · exact .inr ⟨hcuts, hnarrower.inside⟩

/-- Where the left side can go deeper, the right side can. -/
theorem exists_deeper (h : sim.Rooms room further) (hnext : deeper room = some next) :
    ∃ last, deeper further = some last ∧ sim.Rooms next last := by
  obtain ⟨rfl, hlimited⟩ | ⟨hcuts, hnarrower⟩ := h
  · exact ⟨next, hnext, .inl ⟨rfl, fun hsome => hlimited (isSome_of_deeper hnext ▸ hsome)⟩⟩
  · obtain ⟨last, hlast, hnarrower⟩ := hnarrower.exists_deeper hnext
    exact ⟨last, hlast, .inr ⟨hcuts, hnarrower⟩⟩

theorem full (h : sim.Rooms room further) (hnext : deeper room = none) :
    sim.cuts ∨ sim.limited ∧ deeper further = none := by
  obtain ⟨rfl, hlimited⟩ | ⟨hcuts, -⟩ := h
  · exact .inr ⟨hlimited (isSome_of_deeper_eq_none hnext), hnext⟩
  · exact .inl hcuts

theorem fits (h : sim.Rooms room further) {frames : Nat} (hfits : fits frames room = true) :
    fits frames further = true := by
  obtain ⟨rfl, -⟩ | ⟨-, hnarrower⟩ := h
  · exact hfits
  · exact hnarrower.fits hfits

theorem not_fits (h : sim.Rooms room further) {frames : Nat} (hfits : Formula.fits frames room = false) :
    sim.cuts ∨ sim.limited ∧ Formula.fits frames further = false := by
  obtain ⟨rfl, hlimited⟩ | ⟨hcuts, -⟩ := h
  · exact .inr ⟨hlimited (isSome_of_not_fits hfits), hfits⟩
  · exact .inl hcuts

end Rooms

namespace Ends

variable {α : Type} {fails others : Failure → Failure → Prop} {good : α → Prop} {held : List String}
  {left right : Except Failure α × State}

theorem imp_failure (h : sim.Ends fails good held left right)
    (hfails : ∀ {failure other}, fails failure other → others failure other) :
    sim.Ends others good held left right := by
  cases h with
  | cut h => exact .cut h
  | ok hvalue h => exact .ok hvalue h
  | error hfailure h => exact .error (hfails hfailure) h

theorem located {left right : Outcome} (h : sim.Ends sim.raises sim.fine held left right)
    {offset place : Nat} (hoffset : sim.offsets offset place) :
    sim.Ends sim.places sim.fine held (Outcome.located offset left) (Outcome.located place right) := by
  cases h with
  | cut h => exact .cut h
  | ok hvalue h => exact .ok hvalue h
  | error hfailure h => exact .error (sim.located hfailure hoffset) h

end Ends

theorem operands_ofValue {id other : Nat} (hid : sim.ids id other) {value : Value} (hvalue : sim.fine value) :
    sim.Operands (.ofValue id value) (.ofValue other value) where
  force _ _ _ _ _ _ h := .ok hvalue (sim.count h hid)
  forces hcounts _ _ _ h := sim.forces hcounts h hid

section Plans

variable {fails : Failure → Failure → Prop} {asks : Nat → Prop} {plans : List String → Plan → Prop}
  {left right : List Operand} {held outer : List String} {s t : State}

/-- Forcing an operand, inside the behaviour or handed on, and going on with its value. -/
theorem ends_force (hadmits : sim.Admits fails left.length asks plans) (hlength : left.length = right.length)
    (hoperands : ∀ index (hl : index < left.length) (hr : index < right.length), asks index →
      sim.Operands left[index] right[index]) (hrooms : sim.Rooms room further) {index : Nat}
    (hindex : asks index) {α : Type} {good : α → Prop}
    {first second : Value → State → Except Failure α × State}
    (hnext : ∀ ⦃value⦄, sim.fine value → ∀ ⦃u v⦄, sim.states outer u v →
      sim.Ends fails good outer (first value u) (second value v)) (h : sim.states outer s t) :
    sim.Ends fails good outer
      (match left[index]? with
        | none => (.error (.fault .missingItem), s)
        | some target =>
          match target.force room s with
          | (.ok value, state) => first value state
          | (.error failure, state) => (.error failure, state))
      (match right[index]? with
        | none => (.error (.fault .missingItem), t)
        | some target =>
          match target.force further t with
          | (.ok value, state) => second value state
          | (.error failure, state) => (.error failure, state)) := by
  by_cases hl : index < left.length
  · have hr : index < right.length := hlength ▸ hl
    have hforced := (hoperands index hl hr hindex).force hrooms h
    rw [List.getElem?_eq_getElem hl, List.getElem?_eq_getElem hr]
    dsimp only
    generalize left[index].force room s = one at hforced
    generalize right[index].force further t = other at hforced
    cases hforced with
    | cut h => exact .cut h
    | ok hvalue h => exact hnext hvalue h
    | error hfailure h => exact .error (hadmits.placed (Nat.zero_lt_of_lt hl) hfailure) h
  · rw [List.getElem?_eq_none (by omega), List.getElem?_eq_none (by omega)]
    exact .error (hadmits.missing hindex (by omega)) h

/-- Plans that keep the simulation end alike in it. -/
theorem run (hadmits : sim.Admits fails left.length asks plans) (hlength : left.length = right.length)
    (hoperands : ∀ index (hl : index < left.length) (hr : index < right.length), asks index →
      sim.Operands left[index] right[index]) (hrooms : sim.Rooms room further) (plan : Plan)
    (hplan : plans held plan) (hheld : held ⊆ outer) (h : sim.states outer s t) :
    sim.Ends fails sim.Replies outer (plan.run left room s) (plan.run right further t) := by
  induction plan generalizing held outer s t with
  | done value => exact .ok (show sim.Replies (.value value) from hadmits.done hplan) h
  | stray kind => exact .ok (show sim.Replies (.stray kind) from hadmits.stray hplan) h
  | fail failure => exact .error (hadmits.fail hplan) h
  | operand index =>
    unfold Plan.run
    exact ends_force hadmits hlength hoperands hrooms (hadmits.operand hplan)
      (fun value hvalue u v huv => .ok (show sim.Replies (.value value) from hvalue) huv) h
  | force index next ih =>
    obtain ⟨hindex, hnext⟩ := hadmits.force hplan
    unfold Plan.run
    exact ends_force hadmits hlength hoperands hrooms.inside hindex
      (fun value hvalue u v huv => ih value (hnext hvalue) hheld huv) h
  | countForces index next ih =>
    obtain ⟨hindex, hnext⟩ := hadmits.countForces hplan
    unfold Plan.run
    by_cases hl : index < left.length
    · have hr : index < right.length := hlength ▸ hl
      obtain ⟨hcounts, hnext⟩ := hnext hl
      rw [List.getElem?_eq_getElem hl, List.getElem?_eq_getElem hr]
      dsimp only
      rw [(hoperands index hl hr hindex).forces hcounts h]
      exact ih _ (hnext _) hheld h
    · rw [List.getElem?_eq_none (by omega), List.getElem?_eq_none (by omega)]
      exact .error (hadmits.missing hindex (by omega)) h
  | read name next ih =>
    obtain ⟨hread, hnext⟩ := hadmits.read hplan hheld
    have hread := hread h
    obtain ⟨environment, memory, forces, trail⟩ := s
    obtain ⟨other, remembered, counts, lines⟩ := t
    unfold Plan.run
    dsimp only at hread ⊢
    generalize environment.read name = one at hread
    generalize other.read name = two at hread
    obtain ⟨result, after⟩ := one
    obtain ⟨found, last⟩ := two
    cases hread with
    | cut h => exact .cut h
    | ok hvalue h => exact ih _ (hnext hvalue) hheld h
    | error hfailure h => exact .error hfailure h
  | bind name value next ih =>
    obtain ⟨hbind, hnext⟩ := hadmits.bind hplan hheld
    have hbound := hbind h
    exact ih _ hnext hheld hbound
  | text value next ih =>
    unfold Plan.run
    cases hfits : fits value.textFrames (Formula.inside room) with
    | true =>
      rw [hrooms.inside.fits hfits]
      exact ih _ (hadmits.text hplan) hheld h
    | false =>
      obtain hcuts | ⟨hlimited, hright⟩ := hrooms.inside.not_fits hfits
      · exact .cut hcuts
      · rw [hright]
        exact .error (hadmits.full hlimited) h
  | log line next ih => exact ih (hadmits.log hplan) hheld (sim.leave h _)
  | print line next ih => exact ih (hadmits.print hplan) hheld (sim.leave h _)
  | retrieve name next ih =>
    obtain ⟨hmemory, hnext⟩ := hadmits.retrieve hplan
    have hrest := ih (s.memory.get? name) (hnext _) hheld h
    unfold Plan.run
    rwa [← hmemory h]
  | remember name value next ih =>
    obtain ⟨hremember, hnext⟩ := hadmits.remember hplan
    exact ih hnext hheld (hremember h)
  | preserving names body next ihBody ihNext =>
    obtain ⟨hbodyPlan, hnext⟩ := hadmits.preserving hplan
    have hnames : names ++ held ⊆ names ++ outer :=
      List.append_subset.mpr ⟨List.subset_append_left .., List.Subset.trans hheld (List.subset_append_right ..)⟩
    have hbody := ihBody hbodyPlan hnames (sim.hold names h)
    unfold Plan.run
    dsimp only
    generalize body.run left room s = one at hbody
    generalize body.run right further t = two at hbody
    cases hbody with
    | cut h => exact .cut h
    | @ok reply _ _ hreply hinner =>
      have hback := sim.restore names h hinner
      cases reply with
      | value value => exact ihNext value (hnext hreply) hheld hback
      | stray kind => exact .ok hreply hback
    | error hfailure hinner => exact .error hfailure (sim.restore names h hinner)
  | catching body next ihBody ihNext =>
    obtain ⟨hbodyPlan, hok, hcuts, herror⟩ := hadmits.catching hplan
    have hbody := ihBody hbodyPlan hheld h
    unfold Plan.run
    generalize body.run left room s = one at hbody
    generalize body.run right further t = two at hbody
    cases hbody with
    | cut h => exact (hcuts h).elim
    | @ok reply _ _ hreply hinner =>
      cases reply with
      | value value => exact ihNext _ (hok hreply) hheld hinner
      | stray kind => exact .ok hreply hinner
    | error hfailure hinner =>
      obtain ⟨rfl, hnext⟩ := herror hfailure
      exact ihNext _ hnext hheld hinner

theorem run_keeps {plan : Plan} (hplan : sim.Keeps fails left.length plan)
    (hoperands : List.Forall₂ sim.Operands left right) (hrooms : sim.Rooms room further)
    (h : sim.states held s t) :
    sim.Ends fails sim.Replies held (plan.run left room s) (plan.run right further t) := by
  obtain ⟨asks, plans, hadmits, hplan⟩ := hplan
  obtain ⟨hlength, hget⟩ := List.forall₂_iff_get.mp hoperands
  exact run hadmits hlength (fun index hl hr _ => hget index hl hr) hrooms plan hplan
    (List.nil_subset held) h

end Plans

section Behaviours

variable {left right : List Operand} {held : List String} {s t : State}

theorem forceAll_ends (hoperands : List.Forall₂ sim.Operands left right) (hrooms : sim.Rooms room further)
    {values : List Value} (hvalues : ∀ value ∈ values, sim.fine value) (h : sim.states held s t) :
    sim.Ends sim.places
      (fun all => all.length = values.length + left.length ∧ ∀ value ∈ all, sim.fine value) held
      (forceAll room values left s) (forceAll further values right t) := by
  induction hoperands generalizing values s t with
  | nil => exact .ok ⟨by simp, by simpa using hvalues⟩ h
  | @cons operand other _ _ hoperand _ ih =>
    have hforced := hoperand.force hrooms h
    unfold forceAll
    generalize operand.force room s = one at hforced
    generalize other.force further t = two at hforced
    cases hforced with
    | cut h => exact .cut h
    | error hfailure h => exact .error hfailure h
    | ok hvalue h =>
      have hrest := ih (List.forall_mem_cons.mpr ⟨hvalue, hvalues⟩) h
      simpa only [List.length_cons, Nat.add_assoc, Nat.add_comm 1] using hrest

theorem applyEager_ends (name : String) {plan : Plan} (hplan : sim.Keeps sim.reports 0 plan)
    (hrooms : sim.Rooms room further) (h : sim.states held s t) :
    sim.Ends sim.raises sim.fine held (applyEager room name plan s) (applyEager further name plan t) := by
  have hrun := run_keeps hplan .nil hrooms h
  unfold applyEager
  generalize plan.run [] room s = one at hrun
  generalize plan.run [] further t = two at hrun
  cases hrun with
  | cut h => exact .cut h
  | @ok reply _ _ hreply h =>
    cases reply with
    | value value => exact .ok hreply h
    | stray kind => exact .error (sim.stray hreply _) h
  | error hfailure h => exact .error (sim.within hfailure name) h

theorem applyLazy_of_run (role name : String) {plan other : Plan}
    (h : sim.Ends sim.raises sim.Replies held (plan.run left room s) (other.run right further t)) :
    sim.Ends sim.raises sim.fine held (applyLazy room role name plan left s)
      (applyLazy further role name other right t) := by
  unfold applyLazy
  generalize plan.run left room s = one at h
  generalize other.run right further t = two at h
  cases h with
  | cut h => exact .cut h
  | @ok reply _ _ hreply h =>
    cases reply with
    | value value => exact .ok hreply h
    | stray kind => exact .error (sim.stray hreply _) h
  | error hfailure h => exact .error hfailure h

theorem apply_ends {settings : Settings} (role name : String) {behaviour : Behaviour}
    (hbehaviour : sim.Behaves settings left.length behaviour)
    (hoperands : List.Forall₂ sim.Operands left right) (hrooms : sim.Rooms room further)
    (h : sim.states held s t) :
    sim.Ends sim.raises sim.fine held (behaviour.apply settings room role name left s)
      (behaviour.apply settings further role name right t) := by
  unfold Behaviour.apply
  cases behaviour with
  | lazy plan =>
    dsimp only
    rw [← hoperands.length_eq]
    exact applyLazy_of_run role name (run_keeps hbehaviour hoperands hrooms h)
  | eager plan =>
    have hforced := forceAll_ends hoperands hrooms (List.forall_mem_nil _) h
    dsimp only
    generalize forceAll room [] left s = one at hforced
    generalize forceAll further [] right t = two at hforced
    cases hforced with
    | cut h => exact .cut h
    | error hfailure h => exact .error (sim.raised hfailure) h
    | ok hvalues h => exact applyEager_ends name (hbehaviour (by simpa using hvalues.1) hvalues.2) hrooms h

theorem applySteps_ends {settings : Settings} {id other : Nat} (hid : sim.ids id other) {op : Operator}
    (hop : sim.Behaves settings 2 op.behaviour) {value : Value} (hvalue : sim.fine value)
    {steps others : List (Nat × Operand)}
    (hsteps : List.Forall₂ (fun step other => sim.offsets step.1 other.1 ∧ sim.Operands step.2 other.2)
      steps others) (hrooms : sim.Rooms room further) (h : sim.states held s t) :
    sim.Ends sim.places sim.fine held (applySteps settings room id op value steps s)
      (applySteps settings further other op value others t) := by
  induction hsteps generalizing value s t with
  | nil => exact .ok hvalue h
  | @cons step last _ _ hstep _ ih =>
    obtain ⟨offset, right⟩ := step
    obtain ⟨place, right'⟩ := last
    have happlied := (apply_ends operatorRole op.symbol hop
      (.cons (operands_ofValue hid hvalue) (.cons hstep.2 .nil)) hrooms (sim.reset h hid)).located hstep.1
    unfold applySteps applyStep
    generalize Outcome.located offset (op.behaviour.apply _ _ _ _ _ (s.resetForces id)) = one at happlied
    generalize Outcome.located place (op.behaviour.apply _ _ _ _ _ (t.resetForces other)) = two at happlied
    cases happlied with
    | cut h => exact .cut h
    | ok hvalue h => exact ih hvalue h
    | error hfailure h => exact .error hfailure h

end Behaviours

end Simulation

end Formula
