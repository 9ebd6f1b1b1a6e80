import Formula.Proofs.Decimal.Whole
import Formula.Proofs.Evaluation.Repeats
import Formula.Proofs.Evaluation.RoundsInStep
import Formula.Proofs.Session.Script

/-! # Repetitions of one body

Counting, going through the list of the numbers, and asking a condition that always holds are the same
rounds of a body. They leave the same lines and the same environment, fail alike, and differ only in what
they make of the values of the rounds.
-/
namespace Formula

open Library (itemName)

/-- A repetition from `state` ends as the rounds do by themselves: with this value of their values, or with
the same failure up to its place; with their entries, but for the name of the items, which is put back; and
with what they left on the trail, after the earlier events and those of entering the repetition. -/
structure EndsAs (state : State) (value : List Value → Value) (ran : Except Failure (List Value) × State)
    (ended : Outcome) : Prop where
  result : ended.1.mapError Failure.unplaced = (ran.1.map value).mapError Failure.unplaced
  environment : ended.2.environment.Alike (ran.2.environment.restore (state.environment.save [itemName]))
  memory : ended.2.memory = ran.2.memory
  trail : ∃ entry, ended.2.trail = ran.2.trail ++ (entry ++ state.trail) ∧ Report.linesOf entry = []

/-- The lines of the rounds are what a repetition adds to the lines for the host. -/
theorem EndsAs.lines {state : State} {value : List Value → Value} {ran : Except Failure (List Value) × State}
    {ended : Outcome} (h : EndsAs state value ran ended) :
    Report.linesOf ended.2.trail = Report.linesOf state.trail ++ Report.linesOf ran.2.trail := by
  obtain ⟨entry, htrail, hentry⟩ := h.trail
  rw [htrail, Report.linesOf_append, Report.linesOf_append, hentry, List.append_nil]

namespace State

def hushed (state : State) : State := { state with trail := [] }

variable {state begun : State}

/-- A call that is entered writes no line for the host. -/
theorem exists_trail_enter (settings : Settings) (id : Nat) (name : String) (arguments : Nat)
    (state : State) : ∃ entry,
      (state.enter settings id name arguments).trail = entry ++ state.trail ∧ Report.linesOf entry = [] := by
  unfold enter
  split
  · exact ⟨[.call name arguments], rfl, rfl⟩
  · exact ⟨[], rfl, rfl⟩

theorem environment_enter (settings : Settings) (id : Nat) (name : String) (arguments : Nat) (state : State) :
    (state.enter settings id name arguments).environment = state.environment := by
  unfold enter
  split <;> rfl

theorem memory_enter (settings : Settings) (id : Nat) (name : String) (arguments : Nat) (state : State) :
    (state.enter settings id name arguments).memory = state.memory := by
  unfold enter
  split <;> rfl

/-- A call whose arguments were forced quietly begins its rounds as if there were no lines before. -/
theorem Agrees.echoes_hushed {settings : Settings} {id arguments : Nat} {name : String}
    (h : begun.Agrees (state.enter settings id name arguments)) :
    begun.Echoes (state.enter settings id name arguments).trail state.hushed :=
  ⟨h.environment.trans (environment_enter settings id name arguments state),
    h.memory.trans (memory_enter settings id name arguments state), h.trail⟩

end State

namespace Node

theorem gives_constant (settings : Settings) (room : Option Nat) (id : Nat) (label : String) (value : Value) :
    ((Node.constant id label value).operand settings).Gives room value := by
  intro state
  refine ⟨state.countForce id, ?_, (State.Agrees.refl state).countForce_left id⟩
  change (Node.constant id label value).force settings room state = _
  rw [Node.force]

variable {settings : Settings} {room next : Option Nat} {f : Function} {arguments : List Node}
  {state begun : State} {left right : Except Failure (List Value) × State} {value : List Value → Value}

/-- A repetition whose rounds follow others ends as those do. -/
theorem endsAs_of_follows (hroom : deeper room = some next) (id : Nat) (label : String) (offset : Nat)
    (h : Repeats next (state.enter settings id f.name arguments.length) f (operandsOf settings arguments)
      [itemName] begun (.ofRounds value left))
    (hbegun : begun.Agrees (state.enter settings id f.name arguments.length))
    (hfollows : Follows (state.enter settings id f.name arguments.length).trail left right) :
    EndsAs state value right ((Node.call id label f offset arguments).force settings room state) := by
  have hrounds := hfollows.ofRounds value
  have hstart : begun.environment = state.environment :=
    hbegun.environment.trans (State.environment_enter settings id f.name arguments.length state)
  rw [force_repetition hroom id label offset h]
  have hstate : (Outcome.located offset ((Outcome.ofRounds value left).1,
      begun.putBack [itemName] (Outcome.ofRounds value left).2)).2 =
        begun.putBack [itemName] (Outcome.ofRounds value left).2 := by
    cases (Outcome.ofRounds value left).1 <;> rfl
  constructor
  · rw [← hrounds.result]
    cases (Outcome.ofRounds value left).1 with
    | ok value => rfl
    | error failure => exact congrArg Except.error (Failure.unplaced_locate offset failure)
  · rw [hstate, State.putBack, hstart]
    exact hrounds.environment state.environment
  · rw [hstate]
    exact hrounds.memory
  · obtain ⟨entry, htrail, hentry⟩ := state.exists_trail_enter settings id f.name arguments.length
    refine ⟨entry, ?_, hentry⟩
    rw [hstate, ← htrail]
    exact hrounds.trail

end Node

/-- A repetition counts a number for what it is, in whichever notation, unit and variable. -/
theorem Value.rounds?_of_value (room : Option Nat) (place : String) {amount : Decimal} {n : Nat}
    (hamount : amount.value = n) (unit : Option Denomination) (binding : Option String) :
    rounds? room place (.number amount unit binding) = .ok n :=
  congrArg Except.ok (Decimal.truncate_of_value hamount)

namespace Node

variable {settings : Settings} {room next : Option Nat} {once body : Node} {state : State}

theorem operand_echoes (settings : Settings) (room : Option Nat) (honce : once.Direct)
    (hbody : body.unplaced = once.unplaced) (older : List Event) :
    Operand.Echoes room older (body.operand settings) (once.operand settings) := by
  have hdirect : body.Direct := by
    rwa [← direct_unplaced, hbody, direct_unplaced]
  intro s t h
  exact body.force_echoes hdirect hbody (.same room) h

variable (honce : once.Direct) (hroom : deeper room = some next) (hbody : body.unplaced = once.unplaced)
  (id : Nat) (label : String) (offset : Nat) {n : Nat} {amount : Decimal} {unit : Option Denomination}
  {binding : Option String}

include honce hroom hbody

/-- A call that goes through these items once it was given what says which they are. -/
theorem rounds_endsAs {f : Function} {items : List Value} {given : Value} {list : Node}
    {value : List Value → Value}
    (hrepeats : ∀ {before begun : State} {body list : Operand},
      list.force (inside next) before = (.ok given, begun) → Repeats next before f [body, list] [itemName]
        begun (.ofRounds value (body.rounds (inside next) items begun)))
    (hlist : (list.operand settings).Gives (inside next) given) :
    EndsAs state value ((once.operand settings).rounds (inside next) items state.hushed)
      ((call id label f offset [body, list]).force settings room state) := by
  obtain ⟨begun, hforced, hbegun⟩ := hlist (state.enter settings id f.name 2)
  have hrounds := Operand.rounds_echoes (operand_echoes settings (inside next) honce hbody _) items
    hbegun.echoes_hushed
  exact endsAs_of_follows hroom id label offset (hrepeats hforced) hbegun (.of_echoes hrounds)

theorem loop_endsAs {count : Node} (hamount : amount.value = n)
    (hcount : (count.operand settings).Gives (inside next) (.number amount unit binding)) :
    EndsAs state lastOf ((once.operand settings).rounds (inside next) (numbersFrom 0 n) state.hushed)
      ((call id label (Library.lazyFunction "loop" 2 Library.loop) offset [body, count]).force settings room
        state) := by
  refine rounds_endsAs honce hroom hbody id label offset (@fun _ _ repeated _ hforced => ?_) hcount
  have hrepeats : Repeats next _ _ [repeated, _] _ _ _ := .loop hforced
  rwa [Value.rounds?_of_value next "loop" hamount] at hrepeats

theorem while_endsAs {condition bound : Node} {holds : Value}
    (hcondition : (condition.operand settings).Gives (inside next) holds) (hholds : holds.truth = true)
    (hamount : amount.value = n)
    (hbound : (bound.operand settings).Gives (inside next) (.number amount unit binding)) :
    EndsAs state lastOf ((once.operand settings).rounds (inside next) (numbersFrom 0 n) state.hushed)
      ((call id label (Library.lazyFunction "while" 3 Library.whilePlan) offset
        [condition, bound, body]).force settings room state) := by
  obtain ⟨begun, hforced, hbegun⟩ := hbound (state.enter settings id "while" 3)
  have hrepeats : Repeats next _ _ [condition.operand settings, bound.operand settings,
    body.operand settings] _ _ _ := .while hforced
  rw [Value.rounds?_of_value next "while" hamount] at hrepeats
  have hrounds := Operand.roundsWhile_follows (operand_echoes settings (inside next) honce hbody _) hcondition
    hholds 0 n hbegun.echoes_hushed
  exact endsAs_of_follows hroom id label offset hrepeats hbegun hrounds

end Node

/-- With confined functions and operators, such as those of the standard library, every body is direct. -/
theorem Registry.direct_of_treeOf {registry : Registry} {context : Context} {source : String} {tree : Tree}
    (hregistry : registry.Confined) (htree : registry.treeOf context source = .ok tree) :
    tree.root.Direct :=
  (confined_of_treeOf hregistry htree).direct

/-- Repeated as often, a body is forced in the same rounds, for the numbers from zero on in turn, whichever
way it is repeated. What the constructs give is made of the values of these rounds. -/
theorem Node.repetitions_alike {settings : Settings} {room next : Option Nat}
    (hroom : deeper room = some next) {once : Node} (honce : once.Direct) (n : Nat) (state : State) :
    let ran := (once.operand settings).rounds (inside next) (numbersFrom 0 n) state.hushed
    (∀ values, ran.1 = .ok values → values.length = n) ∧
    (∀ (id : Nat) (label : String) (offset : Nat) (body count : Node) (amount : Decimal)
      (unit : Option Denomination) (binding : Option String), body.unplaced = once.unplaced →
      amount.value = n → (count.operand settings).Gives (inside next) (.number amount unit binding) →
      EndsAs state lastOf ran
        ((call id label (Library.lazyFunction "loop" 2 Library.loop) offset [body, count]).force
          settings room state)) ∧
    (∀ (id : Nat) (label : String) (offset : Nat) (condition bound body : Node) (holds : Value)
      (amount : Decimal) (unit : Option Denomination) (binding : Option String),
      body.unplaced = once.unplaced → (condition.operand settings).Gives (inside next) holds →
      holds.truth = true → amount.value = n →
      (bound.operand settings).Gives (inside next) (.number amount unit binding) →
      EndsAs state lastOf ran
        ((call id label (Library.lazyFunction "while" 3 Library.whilePlan) offset
          [condition, bound, body]).force settings room state)) ∧
    (∀ (id : Nat) (label : String) (offset : Nat) (body items : Node) (binding : Option String),
      body.unplaced = once.unplaced →
      (items.operand settings).Gives (inside next) (.list (numbersFrom 0 n) binding) →
      EndsAs state (fun values => .list values none) ran
        ((call id label (Library.lazyFunction "map" 2 Library.mapPlan) offset [body, items]).force
          settings room state)) ∧
    ∀ (id : Nat) (label : String) (offset : Nat) (body items : Node) (binding : Option String),
      body.unplaced = once.unplaced →
      (items.operand settings).Gives (inside next) (.list (numbersFrom 0 n) binding) →
      EndsAs state countTrue ran
        ((call id label (Library.lazyFunction "for" 2 Library.forPlan) offset [body, items]).force
          settings room state) := by
  intro ran
  refine ⟨?_, ?_, ?_, ?_, ?_⟩
  · intro values hvalues
    rw [Operand.length_rounds hvalues, numbersFrom, List.length_map, List.length_range']
  · intro id label offset body count amount unit binding hbody hamount hcount
    exact loop_endsAs honce hroom hbody id label offset hamount hcount
  · intro id label offset condition bound body holds amount unit binding hbody hcondition hholds hamount
      hbound
    exact while_endsAs honce hroom hbody id label offset hcondition hholds hamount hbound
  · intro id label offset body items binding hbody hitems
    exact rounds_endsAs honce hroom hbody id label offset (fun hforced => .map hforced) hitems
  · intro id label offset body items binding hbody hitems
    exact rounds_endsAs honce hroom hbody id label offset (fun hforced => .for hforced) hitems

/-- Printing the number of the round, twice. -/
theorem Node.printed_twice_alike :
    let settings : Settings := ⟨.standard, false, false, {}⟩
    let printed (id offset : Nat) : Node :=
      .call (id + 1) "print" (Library.eagerFunction "print" 1 Library.print) offset
        [.reference id "_" (offset + 6)]
    let two (id : Nat) : Node := .constant id "2" (.ofNat 2)
    let items : Node := .constant 2 "items" (.list (numbersFrom 0 2) none)
    let one : Node := .constant 0 "1" (.ofNat 1)
    let state := State.ofEnvironment .empty
    let ran := ((printed 0 0).operand settings).rounds none (numbersFrom 0 2) state
    let looped := (call 3 "loop" (Library.lazyFunction "loop" 2 Library.loop) 0 [printed 0 5, two 2]).force
      settings none state
    ran.1 = .ok [(Value.ofNat 0).boundTo "_", (Value.ofNat 1).boundTo "_"] ∧
      EndsAs state lastOf ran looped ∧
      Report.linesOf looped.2.trail = [⟨.output, "0"⟩, ⟨.output, "1"⟩] ∧
      EndsAs state lastOf ran
        ((call 4 "while" (Library.lazyFunction "while" 3 Library.whilePlan) 0
          [one, two 1, printed 2 12]).force settings none state) ∧
      EndsAs state (fun values => .list values none) ran
        ((call 3 "map" (Library.lazyFunction "map" 2 Library.mapPlan) 0 [printed 0 4, items]).force settings
          none state) ∧
      EndsAs state countTrue ran
        ((call 3 "for" (Library.lazyFunction "for" 2 Library.forPlan) 0 [printed 0 4, items]).force settings
          none state) := by
  intro settings printed two items one state ran looped
  have hread : Registry.standard.freeze.treeOf .standard "print(_)" = .ok ⟨printed 0 0, 3⟩ := rfl
  have hdirect : (printed 0 0).Direct := Registry.direct_of_treeOf Registry.standard_confined hread
  have htwo (id : Nat) : ((two id).operand settings).Gives none (.ofNat 2) :=
    gives_constant settings none id "2" (.ofNat 2)
  have hitems := gives_constant settings none 2 "items" (.list (numbersFrom 0 2) none)
  have hone := gives_constant settings none 0 "1" (.ofNat 1)
  obtain ⟨-, hloops, hwhile, hmap, hfor⟩ :=
    @Node.repetitions_alike settings none none rfl (printed 0 0) hdirect 2 state
  have hloop : EndsAs state lastOf ran looped := hloops 3 "loop" 0 (printed 0 5) (two 2) (.ofNat 2) none none rfl
    (Decimal.value_ofNat 2) (htwo 2)
  refine ⟨rfl, hloop, ?_, ?_, ?_, ?_⟩
  · exact hloop.lines.trans rfl
  · exact hwhile 4 "while" 0 one (two 1) (printed 2 12) (.ofNat 1) (.ofNat 2) none none rfl hone rfl
      (Decimal.value_ofNat 2) (htwo 1)
  · exact hmap 3 "map" 0 (printed 0 4) items none rfl hitems
  · exact hfor 3 "for" 0 (printed 0 4) items none rfl hitems

end Formula
