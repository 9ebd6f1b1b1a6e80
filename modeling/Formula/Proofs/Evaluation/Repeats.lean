import Formula.Proofs.Environment.Restoration
import Formula.Proofs.Evaluation.Invariant
import Formula.Proofs.Evaluation.Rounds

/-! # Repetitions put their names back

A repetition ends as its rounds do by themselves, with a value or a failure, and then its names hold what
they held when the rounds began. An entry that only these names hold is not forced in between: each round
finds fresh entries under them.
-/
namespace Formula

namespace Environment

/-- The cell with this number was forced `count` times, and none but these names hold it. -/
structure Hides (names : List String) (id count : Nat) (env : Environment) : Prop where
  forced : env.forces[id]? = some count
  holders : ∀ ⦃name cell⦄, env.cell? name = some cell → cell.id = id → name ∈ names

namespace Hides

variable {names : List String} {id count : Nat} {env before after : Environment}

theorem weaken (h : env.Hides [] id count) (names : List String) : env.Hides names id count :=
  ⟨h.forced, fun _ _ hcell hid => absurd (h.holders hcell hid) List.not_mem_nil⟩

theorem define {name : String} (h : env.Hides (name :: names) id count) (entry : Entry) :
    (env.define name entry).Hides names id count := by
  obtain ⟨hlt, hforced⟩ := Array.getElem?_eq_some_iff.mp h.forced
  constructor
  · have hpush : (env.forces.push 0)[id]? = some count := by
      rw [Array.getElem?_push_lt hlt, hforced]
    exact hpush
  · intro other cell hcell hid
    by_cases hother : other = name
    · -- The new cell has a number of its own.
      subst hother
      rw [cell?_define_self] at hcell
      obtain rfl := Option.some.inj hcell
      have hid : env.forces.size = id := hid
      omega
    · rw [cell?_define_of_ne hother] at hcell
      have hmem := h.holders hcell hid
      exact (List.mem_cons.mp hmem).resolve_left hother

theorem bind {name : String} (h : env.Hides (name :: names) id count) (value : Value) :
    (env.bind name value).Hides names id count :=
  h.define _

theorem lookup (h : env.Hides [] id count) (name : String) : (env.lookup name).2.Hides [] id count := by
  unfold Environment.lookup
  split
  next => exact h
  next => exact (h.weaken [name]).define _

theorem read (h : env.Hides [] id count) (name : String) : (env.read name).2.Hides [] id count := by
  have hlookup := h.lookup name
  have hcell := cell?_lookup_self env name
  have hne : (env.lookup name).1.id ≠ id := fun hid => by simpa using hlookup.holders hcell hid
  refine ⟨?_, hlookup.holders⟩
  have hset : (env.read name).2.forces[id]? = (env.lookup name).2.forces[id]? :=
    Array.getElem?_setIfInBounds_ne hne
  exact hset.trans hlookup.forced

theorem restore_save (hbefore : before.Hides names id count) (hafter : after.Hides names id count)
    (saved : List String) : (after.restore (before.save saved)).Hides names id count := by
  constructor
  · rw [forces_restore]
    exact hafter.forced
  · intro name cell hcell hid
    rw [cell?_restore_save] at hcell
    split at hcell
    next => exact hbefore.holders hcell hid
    next => exact hafter.holders hcell hid

/-- A cell that no name holds is not forced. -/
theorem invariant (id count : Nat) : Invariant (Hides [] id count) fun _ => True where
  bind name h _ := (h.weaken [name]).bind _
  read name h := h.read name
  value _ _ := trivial
  restore names hbefore h := hbefore.restore_save h names
  boundTo _ _ := trivial

theorem forcesOf_eq {cell : Cell} (h : env.Hides names cell.id count) : env.forcesOf cell = count := by
  rw [forcesOf, Array.getD_eq_getD_getElem?, h.forced]
  rfl

end Hides

end Environment

open Environment (Hides PutsBack)
open Library (itemName gatheredName)

namespace Operand

variable {body condition : Operand} {room : Option Nat} {id count : Nat} {state : State}

def Spares (id count : Nat) (operand : Operand) : Prop :=
  ∀ (room : Option Nat) ⦃state : State⦄, state.environment.Hides [] id count →
    (operand.force room state).2.environment.Hides [] id count

theorem rounds_hides (hbody : body.Spares id count) (items : List Value)
    (h : state.environment.Hides [itemName] id count) :
    (body.rounds room items state).2.environment.Hides [itemName] id count := by
  induction items generalizing state with
  | nil => exact h
  | cons item items ih =>
    have hbound : (state.bind itemName item).environment.Hides [] id count := h.bind item
    have hforced := hbody room hbound
    rw [rounds]
    generalize body.force room (state.bind itemName item) = outcome at hforced
    obtain ⟨(failure | value), after⟩ := outcome
    · exact hforced.weaken _
    · exact ih (hforced.weaken _)

theorem roundsWhile_hides (hcondition : condition.Spares id count) (hbody : body.Spares id count)
    (round bound : Nat) (h : state.environment.Hides [] id count) :
    (roundsWhile condition body room round bound state).2.environment.Hides [] id count := by
  induction bound generalizing round state with
  | zero => exact h
  | succ bound ih =>
    have hasked := hcondition room h
    rw [roundsWhile]
    generalize condition.force room state = outcome at hasked
    obtain ⟨(failure | holds), middle⟩ := outcome
    · exact hasked
    have hforced := hbody room hasked
    dsimp only
    split
    · generalize body.force room middle = outcome at hforced
      obtain ⟨(failure | value), after⟩ := outcome
      · exact hforced
      · have hbound : (after.bind itemName (.ofNat (round + 1))).environment.Hides [] id count :=
          (hforced.weaken [itemName]).bind _
        exact ih (round + 1) hbound
    · exact hasked

theorem gather_hides (hbody : body.Spares id count) (gathered : Value) (items : List Value)
    (h : state.environment.Hides [gatheredName, itemName] id count) :
    (body.gather room gathered items state).2.environment.Hides [gatheredName, itemName] id count := by
  induction items generalizing gathered state with
  | nil => exact h
  | cons item items ih =>
    have hbound : ((state.bind gatheredName gathered).bind itemName item).environment.Hides [] id count :=
      (h.bind gathered).bind item
    have hforced := hbody room hbound
    rw [gather]
    generalize body.force room _ = outcome at hforced
    obtain ⟨(failure | value), after⟩ := outcome
    · exact hforced.weaken _
    · exact ih value (hforced.weaken _)

end Operand

/-- With so much room `f` repeats its body on these operands: forcing its count or its list leads from `before`
to `begun`, and from there its rounds by themselves, which bind the names, end as `ran`. What was forced may
turn out to be no number or no list, and there are no rounds. -/
inductive Repeats (room : Option Nat) (before : State) : Function → List Operand → (names : List String) →
    (begun : State) → (ran : Outcome) → Prop
  | loop {body count : Operand} {value : Value} {begun : State}
      (hcount : count.force (inside room) before = (.ok value, begun)) :
      Repeats room before (Library.lazyFunction "loop" 2 Library.loop) [body, count] [itemName] begun
        (.given (value.rounds? room "loop")
          (fun count state =>
            Outcome.ofRounds lastOf (body.rounds (inside room) (numbersFrom 0 count) state)) begun)
  | map {body items : Operand} {value : Value} {begun : State}
      (hitems : items.force (inside room) before = (.ok value, begun)) :
      Repeats room before (Library.lazyFunction "map" 2 Library.mapPlan) [body, items] [itemName] begun
        (.given (value.items? room "map")
          (fun items state =>
            Outcome.ofRounds (fun values => .list values none) (body.rounds (inside room) items state)) begun)
  | for {body items : Operand} {value : Value} {begun : State}
      (hitems : items.force (inside room) before = (.ok value, begun)) :
      Repeats room before (Library.lazyFunction "for" 2 Library.forPlan) [body, items] [itemName] begun
        (.given (value.items? room "for")
          (fun items state => Outcome.ofRounds countTrue (body.rounds (inside room) items state)) begun)
  | while {condition bound body : Operand} {value : Value} {begun : State}
      (hbound : bound.force (inside room) before = (.ok value, begun)) :
      Repeats room before (Library.lazyFunction "while" 3 Library.whilePlan) [condition, bound, body]
        [itemName] begun
        (.given (value.rounds? room "while")
          (fun bound state =>
            Outcome.ofRounds lastOf
              (Operand.roundsWhile condition body (inside room) 0 bound (state.bind itemName .zero))) begun)
  | reduce {body items initial : Operand} {gathered value : Value} {middle begun : State}
      (hinitial : initial.force (inside room) before = (.ok gathered, middle))
      (hitems : items.force (inside room) middle = (.ok value, begun)) :
      Repeats room before (Library.lazyFunction "reduce" 3 Library.reduce) [body, items, initial]
        [gatheredName, itemName] begun
        (.given (value.items? room "reduce")
          (fun items state => body.gather (inside room) gathered items state) begun)

theorem State.putBack_self (state : State) (names : List String) : state.putBack names state = state := by
  rw [putBack, Environment.restore_save_self]

section Plans

variable {operands : List Operand} {room : Option Nat} {names : List String} {begun : State}

/-- Rounds that are preceded by what they need: where that fails there is nothing to put back. -/
theorem Outcome.given_putBack {α : Type} {plan : α → Plan} {ran : α → State → Outcome}
    (hplan : ∀ a state, (plan a).run operands room state =
      ((ran a state).1.map .value, state.putBack names (ran a state).2))
    (result : Except Failure α) (state : State) :
    Outcome.given result (fun a => (plan a).run operands room) state =
      ((Outcome.given result ran state).1.map .value,
        state.putBack names (Outcome.given result ran state).2) := by
  cases result with
  | ok a => exact hplan a state
  | error failure =>
    exact Prod.ext rfl (state.putBack_self names).symm

/-- Rounds between names that are put back, with what is made of their values. -/
theorem Plan.run_preserving_rounds {plan : Plan} {state : State} {value : List Value → Value}
    {ran : Except Failure (List Value) × State}
    (hplan : plan.run operands room state = (ran.1.map fun values => .value (value values), ran.2))
    (names : List String) :
    (Plan.preserving names plan .done).run operands room state =
      ((Outcome.ofRounds value ran).1.map .value, state.putBack names (Outcome.ofRounds value ran).2) := by
  rw [run_preserving, hplan]
  obtain ⟨(failure | values), last⟩ := ran <;> rfl

/-- What a plan does after it forced an operand that had this value. -/
theorem Plan.run_force_of_ok {target : Operand} {before : State} {value : Value} {index : Nat}
    (hindex : operands[index]? = some target)
    (hforced : target.force (inside room) before = (.ok value, begun)) (next : Value → Plan) :
    (Plan.force index next).run operands room before = (next value).run operands room begun := by
  rw [run_force_eq index hindex, hforced]

theorem applyLazy_eq_of_run {plan : Plan} {state last : State} {result : Except Failure Value}
    (h : plan.run operands room state = (result.map .value, last)) (role name : String) :
    applyLazy room role name plan operands state = (result, last) := by
  rw [applyLazy, h]
  cases result <;> rfl

end Plans

namespace Repeats

variable {f : Function} {operands : List Operand} {room : Option Nat} {before begun : State}
  {names : List String} {ran : Outcome}

/-- A repetition ends as its rounds do, but for the names it puts back. -/
theorem apply_eq (h : Repeats room before f operands names begun ran) (settings : Settings)
    (role : String) :
    f.behaviour.apply settings room role f.name operands before = (ran.1, begun.putBack names ran.2) := by
  cases h with
  | loop hcount =>
    refine applyLazy_eq_of_run ((Plan.run_force_of_ok rfl hcount _).trans ?_) _ _
    rw [Plan.run_rounds]
    refine Outcome.given_putBack (fun count state => ?_) _ begun
    exact Plan.run_preserving_rounds (Plan.run_loopFrom rfl 0 .zero count state) _
  | map hitems =>
    refine applyLazy_eq_of_run ((Plan.run_force_of_ok rfl hitems _).trans ?_) _ _
    rw [Plan.run_items]
    refine Outcome.given_putBack (fun items state => ?_) _ begun
    exact Plan.run_preserving_rounds (Plan.run_mapOver rfl [] items state) _
  | @«for» body items _ _ hitems =>
    refine applyLazy_eq_of_run ((Plan.run_force_of_ok rfl hitems _).trans ?_) _ _
    rw [Plan.run_items]
    refine Outcome.given_putBack (fun values state => ?_) _ begun
    have hcount : (Library.countOver 0 values).run [body, items] room state =
        ((body.rounds (inside room) values state).1.map fun values => .value (countTrue values),
          (body.rounds (inside room) values state).2) := by
      simpa only [Nat.zero_add, countTrue] using Plan.run_countOver rfl 0 values state
    exact Plan.run_preserving_rounds hcount _
  | @«while» condition bound body _ _ hbound =>
    refine applyLazy_eq_of_run ((Plan.run_force_of_ok rfl hbound _).trans ?_) _ _
    rw [Plan.run_rounds]
    refine Outcome.given_putBack (fun rounds state => ?_) _ begun
    have hwhile : (Plan.bind itemName .zero fun _ => Library.whileFrom 0 .zero rounds).run
        [condition, bound, body] room state = _ :=
      Plan.run_whileFrom rfl rfl 0 .zero rounds (state.bind itemName .zero)
    exact Plan.run_preserving_rounds hwhile _
  | @reduce body items initial gathered value middle begun hinitial hitems =>
    refine applyLazy_eq_of_run ((Plan.run_force_of_ok rfl hinitial _).trans ?_) _ _
    refine (Plan.run_force_of_ok rfl hitems _).trans ?_
    rw [Plan.run_items]
    refine Outcome.given_putBack (fun values state => ?_) _ begun
    cases values with
    | nil =>
      exact Prod.ext rfl (state.putBack_self _).symm
    | cons first rest =>
      have hrun : (Library.reduceOver gathered (first :: rest)).run [body, items, initial] room state = _ :=
        Plan.run_reduceOver rfl gathered (first :: rest) state
      refine (Plan.run_preserving [gatheredName, itemName] _ state).trans ?_
      rw [hrun]

/-- The rounds force no cell that only their names hold. -/
theorem ran_hides (h : Repeats room before f operands names begun ran) {id count : Nat}
    (hoperands : ∀ operand ∈ operands, operand.Spares id count)
    (hbegun : begun.environment.Hides names id count) : ran.2.environment.Hides names id count := by
  cases h with
  | @loop body _ value _ _ =>
    have hbody : body.Spares id count := hoperands body (by simp)
    cases value.rounds? room "loop" with
    | ok rounds => exact Operand.rounds_hides hbody _ hbegun
    | error failure => exact hbegun
  | @map body _ value _ _ =>
    cases value.items? room "map" with
    | ok values => exact Operand.rounds_hides (hoperands body (by simp)) values hbegun
    | error failure => exact hbegun
  | @«for» body items value _ _ =>
    cases value.items? room "for" with
    | ok values => exact Operand.rounds_hides (hoperands body (by simp)) values hbegun
    | error failure => exact hbegun
  | @«while» condition bound body value _ _ =>
    cases value.rounds? room "while" with
    | ok rounds =>
      have hfirst : (begun.bind itemName .zero).environment.Hides [] id count := hbegun.bind .zero
      have hlast : (Operand.roundsWhile condition body (inside room) 0 rounds
          (begun.bind itemName .zero)).2.environment.Hides [] id count :=
        Operand.roundsWhile_hides (hoperands condition (by simp)) (hoperands body (by simp)) 0 rounds hfirst
      exact hlast.weaken _
    | error failure => exact hbegun
  | @reduce body items initial gathered value _ _ _ _ =>
    cases value.items? room "reduce" with
    | ok values => exact Operand.gather_hides (hoperands body (by simp)) gathered values hbegun
    | error failure => exact hbegun

end Repeats

def State.enter (settings : Settings) (id : Nat) (name : String) (arguments : Nat) (state : State) : State :=
  if settings.traced then (state.countForce id).leave (.call name arguments) else state.countForce id

namespace Node

variable {settings : Settings} {room next : Option Nat} {f : Function} {arguments : List Node}
  {names : List String} {state begun : State} {ran : Outcome}

theorem force_call (hroom : deeper room = some next) (id : Nat) (label : String) (offset : Nat) :
    (Node.call id label f offset arguments).force settings room state =
      Outcome.located offset (f.behaviour.apply settings next functionRole f.name
        (operandsOf settings arguments) (state.enter settings id f.name arguments.length)) := by
  rw [Node.force, hroom]
  rfl

theorem operandsOf_spares (settings : Settings) (nodes : List Node) (id count : Nat) :
    ∀ operand ∈ operandsOf settings nodes, operand.Spares id count := by
  intro operand hmem room state h
  rw [operandsOf_eq_map] at hmem
  obtain ⟨node, -, rfl⟩ := List.mem_map.mp hmem
  exact (node.force_leaves settings (Hides.invariant id count) (node.gives_trivially settings) room
    h).environment

theorem force_repetition (hroom : deeper room = some next) (id : Nat) (label : String) (offset : Nat)
    (h : Repeats next (state.enter settings id f.name arguments.length) f (operandsOf settings arguments)
      names begun ran) :
    (Node.call id label f offset arguments).force settings room state =
      Outcome.located offset (ran.1, begun.putBack names ran.2) := by
  rw [force_call hroom, h.apply_eq]

end Node

/-- The names of a repetition hold, however it ends, what they held when its rounds began; all else is as
the rounds left it, and what only these names held was not forced. Whatever is done in between, names that
are preserved are put back likewise. -/
theorem Node.repetition_putsBack (settings : Settings) :
    (∀ (id : Nat) (label : String) (f : Function) (offset : Nat) (arguments : List Node)
      (room next : Option Nat) (state begun : State) (names : List String) (ran : Outcome),
      deeper room = some next →
      Repeats next (state.enter settings id f.name arguments.length) f (operandsOf settings arguments)
        names begun ran →
      let ended := (Node.call id label f offset arguments).force settings room state
      ended.1 = (Outcome.located offset ran).1 ∧
        ended.2 = { ran.2 with environment := ended.2.environment } ∧
        PutsBack names begun.environment ran.2.environment ended.2.environment ∧
        ∀ cell count, begun.environment.Hides names cell.id count →
          ended.2.environment.forcesOf cell = count) ∧
    ∀ (names : List String) (actions : List Environment.Action) (env : Environment),
      ((Environment.Action.preserving names actions).run env).1 = (Environment.Action.runAll actions env).1 ∧
        PutsBack names env (Environment.Action.runAll actions env).2
          ((Environment.Action.preserving names actions).run env).2 := by
  constructor
  · intro id label f offset arguments room next state begun names ran hroom h ended
    have hended : ended = Outcome.located offset (ran.1, begun.putBack names ran.2) :=
      Node.force_repetition hroom id label offset h
    have hstate : ended.2 = begun.putBack names ran.2 := by
      rw [hended]
      cases ran.1 <;> rfl
    refine ⟨?_, ?_, ?_, ?_⟩
    · rw [hended]
      obtain ⟨(failure | value), last⟩ := ran <;> rfl
    · rw [hstate]
      rfl
    · rw [hstate]
      exact Environment.putsBack_restore _ _ names
    · intro cell count hhides
      have hran := h.ran_hides (operandsOf_spares settings arguments cell.id count) hhides
      rw [hstate, ← hran.forcesOf_eq]
      exact (Environment.putsBack_restore begun.environment ran.2.environment names).forces cell
  · exact Environment.Action.run_preserving

/-- Taking the lengths of the items of a list fails at the second one. The deferred entry of `_` is back, and
was never forced. -/
theorem Node.mapOfLengths_putsBack :
    let entry : Entry := ⟨"given", .deferred fun forced => .ok (.ofNat forced)⟩
    let length : Node :=
      .call 1 "len" (Library.eagerFunction "len" 1 Library.length) 4 [.reference 2 "_" 8]
    let items : Node := .constant 3 "items" (.list [.list [] none, .zero] none)
    let state := State.ofEnvironment (Environment.empty.define "_" entry)
    let map : Node := .call 0 "map" (Library.lazyFunction "map" 2 Library.mapPlan) 0 [length, items]
    let ended := map.force ⟨.standard, false, false, {}⟩ none state
    ended.1 = .error (.at (.noLength "0") 4) ∧ ended.2.environment.cell? "_" = some ⟨entry, 0⟩ ∧
      ended.2.environment.forcesOf ⟨entry, 0⟩ = 0 := by
  intro entry length items state map ended
  obtain ⟨hresult, -, hback, hforced⟩ := (Node.repetition_putsBack ⟨.standard, false, false, {}⟩).1
    0 "map" _ 0 [length, items] none none state _ _ _ rfl (.map rfl)
  refine ⟨?_, ?_, ?_⟩
  · exact hresult.trans rfl
  · exact (hback.held (List.mem_singleton.mpr rfl)).trans rfl
  · refine hforced ⟨entry, 0⟩ 0 ⟨rfl, ?_⟩
    intro name cell hcell hid
    by_cases hname : name = itemName
    · exact List.mem_singleton.mpr hname
    · -- There is no other name.
      have hnone : state.environment.cell? name = none :=
        Environment.cell?_define_of_ne hname Environment.empty entry
      exact absurd (hnone.symm.trans hcell) nofun

end Formula
