import Formula.Proofs.Evaluation.SameCells
import Formula.Proofs.Session.Repetitions

/-! # Repetitions over lists that are put together

Going through one list, and then, in a repetition of its own, through another does what going through both as
one list does. In between the names of the rounds are put back and the call is entered anew; but each round
binds its names itself, so that nothing of this can be seen.
-/
namespace Formula

open Environment (SameBut)
open Library (itemName gatheredName)

variable {names : List String} {name : String} {s t u before past : State}

/-- The states cannot be told apart but by the cells of these names: all other cells are the same, and so are
the lines for the host. -/
structure State.Resembles (names : List String) (s t : State) : Prop where
  environment : SameBut names s.environment t.environment
  memory : s.memory = t.memory
  lines : Report.linesOf s.trail = Report.linesOf t.trail

namespace State.Resembles

theorem refl (names : List String) (s : State) : s.Resembles names s := ⟨.refl names _, rfl, rfl⟩

theorem symm (h : s.Resembles names t) : t.Resembles names s :=
  ⟨h.environment.symm, h.memory.symm, h.lines.symm⟩

theorem trans (h : s.Resembles names t) (k : t.Resembles names u) : s.Resembles names u :=
  ⟨h.environment.trans k.environment, h.memory.trans k.memory, h.lines.trans k.lines⟩

theorem weaken (h : s.Resembles [] t) (names : List String) : s.Resembles names t :=
  ⟨h.environment.weaken names, h.memory, h.lines⟩

theorem bind (h : s.Resembles (name :: names) t) (value : Value) :
    (s.bind name value).Resembles names (t.bind name value) :=
  ⟨h.environment.bind value, h.memory, h.lines⟩

theorem putBack (hbefore : ∀ name ∈ names, before.environment.cell? name = past.environment.cell? name)
    (h : s.Resembles names t) : (before.putBack names s).Resembles [] (past.putBack names t) :=
  ⟨SameBut.restore_save hbefore h.environment, h.memory, h.lines⟩

/-- What goes on after names were put back, and what goes on without that, differ in these names only. -/
theorem resumed (h : t.Resembles [] (before.putBack names s)) : s.Resembles names t :=
  ⟨(SameBut.restored before.environment s.environment names).symm.trans (h.environment.symm.weaken names),
    h.memory.symm, h.lines.symm⟩

theorem cell?_resumed (h : t.Resembles [] (before.putBack names s)) :
    ∀ name ∈ names, before.environment.cell? name = t.environment.cell? name := by
  intro name hname
  rw [h.environment.cell?_eq name]
  exact ((Environment.putsBack_restore before.environment s.environment names).held hname).symm

/-- Entering a call and forcing quiet arguments cannot be seen. -/
theorem of_agrees_enter {begun state : State} {settings : Settings} {id arguments : Nat} {name : String}
    (h : begun.Agrees (state.enter settings id name arguments)) : begun.Resembles [] state := by
  obtain ⟨entry, htrail, hentry⟩ := state.exists_trail_enter settings id name arguments
  refine ⟨?_, h.memory.trans (memory_enter settings id name arguments state), ?_⟩
  · rw [h.environment.trans (environment_enter settings id name arguments state)]
    exact .refl [] _
  · rw [h.trail, htrail, Report.linesOf_append, hentry, List.append_nil]

end State.Resembles

inductive Resemble {α : Type} (names : List String) :
    Except Failure α × State → Except Failure α × State → Prop
  | ok {value : α} {s t : State} (h : s.Resembles names t) : Resemble names (.ok value, s) (.ok value, t)
  | error {failure other : Failure} {s t : State} (hfailure : failure.unplaced = other.unplaced)
      (h : s.Resembles names t) : Resemble names (.error failure, s) (.error other, t)

namespace Resemble

variable {α β : Type} {left right other : Except Failure α × State}

theorem refl (names : List String) (outcome : Except Failure α × State) : Resemble names outcome outcome := by
  obtain ⟨(failure | value), state⟩ := outcome
  · exact .error rfl (.refl names state)
  · exact .ok (.refl names state)

theorem symm (h : Resemble names left right) : Resemble names right left := by
  cases h with
  | ok h => exact .ok h.symm
  | error hfailure h => exact .error hfailure.symm h.symm

theorem trans (h : Resemble names left right) (k : Resemble names right other) : Resemble names left other := by
  cases h with
  | ok h =>
    cases k with
    | ok k => exact .ok (h.trans k)
  | error hfailure h =>
    cases k with
    | error hother k => exact .error (hfailure.trans hother) (h.trans k)

theorem located_left {left right : Outcome} (h : Resemble names left right) (offset : Nat) :
    Resemble names (Outcome.located offset left) right := by
  cases h with
  | ok h => exact .ok h
  | error hfailure h => exact .error ((Failure.unplaced_locate offset _).trans hfailure) h

theorem map (h : Resemble names left right) (f : α → β) :
    Resemble names (left.1.map f, left.2) (right.1.map f, right.2) := by
  cases h with
  | ok h => exact .ok h
  | error hfailure h => exact .error hfailure h

theorem putBack (hbefore : ∀ name ∈ names, before.environment.cell? name = past.environment.cell? name)
    (h : Resemble names left right) :
    Resemble [] (left.1, before.putBack names left.2) (right.1, past.putBack names right.2) := by
  cases h with
  | ok h => exact .ok (h.putBack hbefore)
  | error hfailure h => exact .error hfailure (h.putBack hbefore)

end Resemble

def Operand.Resembles (room : Option Nat) (left right : Operand) : Prop :=
  ∀ ⦃s t : State⦄, s.Resembles [] t → Resemble [] (left.force room s) (right.force room t)

/-- Copies of a direct body resemble each other: neither their places, nor earlier lines, nor the order of names
matter. -/
theorem Node.operand_resembles (settings : Settings) (room : Option Nat) {once left right : Node}
    (honce : once.Direct) (hleft : left.unplaced = once.unplaced) (hright : right.unplaced = once.unplaced) :
    Operand.Resembles room (left.operand settings) (right.operand settings) := by
  intro s t h
  -- Both echo the body in a state without lines; these two states have the same cells.
  let other : State := { t.hushed with forces := s.forces }
  have hs : s.Echoes s.trail s.hushed := ⟨rfl, rfl, rfl⟩
  have ht : t.Echoes t.trail other := ⟨rfl, rfl, rfl⟩
  have hsame : s.hushed.SameCells other := ⟨h.environment, h.memory, rfl, rfl⟩
  have hfirst := operand_echoes settings room honce hleft s.trail hs
  have hsecond := operand_echoes settings room honce hright t.trail ht
  have hmiddle := once.force_endSame settings room hsame
  change EndSame ((once.operand settings).force room _) ((once.operand settings).force room _) at hmiddle
  generalize (left.operand settings).force room s = first at hfirst
  generalize (right.operand settings).force room t = second at hsecond
  generalize (once.operand settings).force room s.hushed = quiet at hfirst hmiddle
  generalize (once.operand settings).force room other = further at hsecond hmiddle
  have hended {s' t' u v : State} (hs : s'.Echoes s.trail u) (ht : t'.Echoes t.trail v)
      (hsame : u.SameCells v) : s'.Resembles [] t' := by
    refine ⟨?_, ?_, ?_⟩
    · rw [hs.environment, ht.environment]
      exact hsame.environment
    · rw [hs.memory, ht.memory, hsame.memory]
    · rw [hs.trail, ht.trail, Report.linesOf_append, Report.linesOf_append, h.lines, hsame.trail]
  cases hmiddle with
  | of result hsame =>
    cases hfirst with
    | deep h => exact h.elim
    | ok hs =>
      cases hsecond with
      | deep h => exact h.elim
      | ok ht => exact .ok (hended hs ht hsame)
    | error hfailure hs =>
      cases hsecond with
      | deep h => exact h.elim
      | error hother ht => exact .error (hfailure.trans hother.symm) (hended hs ht hsame)

namespace Operand

variable {room : Option Nat} {left right : Operand}

/-- The rounds bind the name of the items themselves. -/
theorem rounds_resemble (hbody : Resembles room left right) (items : List Value)
    (h : s.Resembles [itemName] t) :
    Resemble [itemName] (left.rounds room items s) (right.rounds room items t) := by
  induction items generalizing s t with
  | nil => exact .ok h
  | cons item items ih =>
    have hforced := hbody (h.bind item)
    rw [rounds, rounds]
    generalize left.force room (s.bind itemName item) = first at hforced
    generalize right.force room (t.bind itemName item) = second at hforced
    cases hforced with
    | error hfailure h => exact .error hfailure (h.weaken _)
    | ok h => exact (ih (h.weaken _)).map _

/-- Gathering binds both of its names itself. -/
theorem gather_resemble (hbody : Resembles room left right) (gathered : Value) (items : List Value)
    (h : s.Resembles [gatheredName, itemName] t) :
    Resemble [gatheredName, itemName] (left.gather room gathered items s)
      (right.gather room gathered items t) := by
  induction items generalizing gathered s t with
  | nil => exact .ok h
  | cons item items ih =>
    have hforced := hbody ((h.bind gathered).bind item)
    rw [gather, gather]
    generalize left.force room _ = first at hforced
    generalize right.force room _ = second at hforced
    cases hforced with
    | error hfailure h => exact .error hfailure (h.weaken _)
    | ok h => exact ih _ (h.weaken _)

end Operand

/-- `whole` ends as `first` does and then `second`. If one of them fails, `whole` fails alike and leaves what
was left until then; else it ends in the state of `second`, with a value that `join`s those of both. -/
inductive EndsAsBoth (join : Value → Value → Value → Prop) (whole first second : Outcome) : Prop
  | first {failure : Failure} (hfirst : first.1 = .error failure) (h : Resemble [] whole first)
  | second {value : Value} {failure : Failure} (hfirst : first.1 = .ok value)
      (hsecond : second.1 = .error failure) (h : Resemble [] whole second)
  | both {value other total : Value} (hfirst : first.1 = .ok value) (hsecond : second.1 = .ok other)
      (hjoin : join value other total) (h : Resemble [] whole (.ok total, second.2))

namespace EndsAsBoth

variable {once : Operand} {room : Option Nat} {whole first second : Outcome} {items more : List Value}
  {join : Value → Value → Value → Prop}

theorem of_rounds {value : List Value → Value} (honce : Operand.Resembles room once once)
    (hjoin : ∀ values others, join (value values) (value others) (value (values ++ others)))
    (hwhole : Resemble [] whole ((Outcome.ofRounds value (once.rounds room (items ++ more) s)).1,
      s.putBack [itemName] (once.rounds room (items ++ more) s).2))
    (hfirst : Resemble [] first ((Outcome.ofRounds value (once.rounds room items s)).1,
      s.putBack [itemName] (once.rounds room items s).2))
    (hsecond : Resemble [] second ((Outcome.ofRounds value (once.rounds room more first.2)).1,
      first.2.putBack [itemName] (once.rounds room more first.2).2)) :
    EndsAsBoth join whole first second := by
  rw [Operand.rounds_append] at hwhole
  generalize once.rounds room items s = front at hwhole hfirst
  obtain ⟨(failure | values), middle⟩ := front
  · have hboth := hwhole.trans hfirst.symm
    cases hfirst with
    | error => exact .first rfl hboth
  · cases hfirst with
    | @ok _ after _ hafter =>
      -- Whatever the names of the rounds hold when `second` begins, its rounds bind them first.
      have hrest := Operand.rounds_resemble honce more hafter.resumed
      have hboth := hwhole.trans (((hrest.map (values ++ ·)).map value).putBack hafter.cell?_resumed)
      dsimp only at hsecond
      generalize once.rounds room more after = rest at hboth hsecond
      obtain ⟨(failure | others), last⟩ := rest
      · have hfailed := hboth.trans hsecond.symm
        cases hsecond with
        | error => exact .second rfl rfl hfailed
      · cases hsecond with
        | ok hlast => exact .both rfl rfl (hjoin values others) (hboth.trans (.ok hlast.symm))

theorem of_gather {initial : Value} (honce : Operand.Resembles room once once)
    (hwhole : Resemble [] whole ((once.gather room initial (items ++ more) s).1,
      s.putBack [gatheredName, itemName] (once.gather room initial (items ++ more) s).2))
    (hfirst : Resemble [] first ((once.gather room initial items s).1,
      s.putBack [gatheredName, itemName] (once.gather room initial items s).2))
    (hsecond : ∀ gathered, first.1 = .ok gathered →
      Resemble [] second ((once.gather room gathered more first.2).1,
        first.2.putBack [gatheredName, itemName] (once.gather room gathered more first.2).2)) :
    EndsAsBoth (fun _ other total => total = other) whole first second := by
  rw [Operand.gather_append] at hwhole
  generalize once.gather room initial items s = front at hwhole hfirst
  obtain ⟨(failure | gathered), middle⟩ := front
  · have hboth := hwhole.trans hfirst.symm
    cases hfirst with
    | error => exact .first rfl hboth
  · cases hfirst with
    | @ok _ after _ hafter =>
      have hrest := Operand.gather_resemble honce gathered more hafter.resumed
      have hboth := hwhole.trans ((hrest.putBack hafter.cell?_resumed).trans (hsecond gathered rfl).symm)
      obtain ⟨(failure | value), last⟩ := second
      · exact .second rfl rfl hboth
      · exact .both rfl rfl rfl hboth

end EndsAsBoth

/-- A call of this function that repeats the body, wherever that stands in its source, over these items. Its
other operands give these values. -/
inductive Node.RepeatedBy (settings : Settings) (room : Option Nat) (f : Function) (once : Node)
    (items given : List Value) : Node → Prop
  | call (id : Nat) (label : String) (offset : Nat) {body list : Node} {others : List Node}
      {binding : Option String} (hbody : body.unplaced = once.unplaced)
      (hlist : ∀ next, deeper room = some next → (list.operand settings).Gives (inside next) (.list items binding))
      (hothers : ∀ next, deeper room = some next →
        List.Forall₂ (fun value node => (node.operand settings).Gives (inside next) value) given others) :
      RepeatedBy settings room f once items given (.call id label f offset (body :: list :: others))

namespace Value

def Joined (value other total : Value) : Prop :=
  ∃ items more, value = .list items none ∧ other = .list more none ∧ total = .list (items ++ more) none

def Summed (value other total : Value) : Prop :=
  ∃ m n : Nat, value = .ofNat m ∧ other = .ofNat n ∧ total = .ofNat (m + n)

end Value

namespace Node

variable {settings : Settings} {room next : Option Nat} {f : Function} {arguments : List Node}
  {once node : Node} {state begun : State} {items : List Value}

/-- A repetition ends as rounds that resemble its own, with their names put back. -/
theorem resemble_of_repeats (hroom : deeper room = some next) (id : Nat) (label : String) (offset : Nat)
    {ran other : Outcome}
    (h : Repeats next (state.enter settings id f.name arguments.length) f (operandsOf settings arguments)
      names begun ran)
    (hbegun : begun.Agrees (state.enter settings id f.name arguments.length))
    (hran : Resemble names ran other) :
    Resemble [] ((Node.call id label f offset arguments).force settings room state)
      (other.1, state.putBack names other.2) := by
  rw [force_repetition hroom id label offset h]
  refine Resemble.located_left (hran.putBack fun name _ => ?_) offset
  exact (State.Resembles.of_agrees_enter hbegun).environment.cell?_eq name

theorem RepeatedBy.resemble_rounds (hroom : deeper room = some next) (honce : once.Direct)
    {value : List Value → Value}
    (hrepeats : ∀ {before begun : State} {body list : Operand} {binding : Option String},
      list.force (inside next) before = (.ok (.list items binding), begun) →
        Repeats next before f [body, list] [itemName] begun
          (.ofRounds value (body.rounds (inside next) items begun)))
    (h : once.RepeatedBy settings room f items [] node) (state : State) :
    Resemble [] (node.force settings room state)
      ((Outcome.ofRounds value ((once.operand settings).rounds (inside next) items state)).1,
        state.putBack [itemName] ((once.operand settings).rounds (inside next) items state).2) := by
  cases h with
  | call id label offset hbody hlist hothers =>
    cases hothers next hroom
    obtain ⟨begun, hforced, hbegun⟩ := hlist next hroom (state.enter settings id f.name 2)
    have hrounds := Operand.rounds_resemble (operand_resembles settings (inside next) honce hbody rfl) items
      ((State.Resembles.of_agrees_enter hbegun).weaken [itemName])
    have hran := hrounds.map value
    exact resemble_of_repeats hroom id label offset (hrepeats hforced) hbegun hran

theorem RepeatedBy.resemble_gather (hroom : deeper room = some next) (honce : once.Direct) {initial : Value}
    (h : once.RepeatedBy settings room (Library.lazyFunction "reduce" 3 Library.reduce) items [initial] node)
    (state : State) :
    Resemble [] (node.force settings room state)
      (((once.operand settings).gather (inside next) initial items state).1,
        state.putBack [gatheredName, itemName]
          ((once.operand settings).gather (inside next) initial items state).2) := by
  cases h with
  | @call id label offset body list _ _ hbody hlist hothers =>
    cases hothers next hroom with
    | @cons _ start _ _ hstart hnil =>
      cases hnil
      obtain ⟨middle, hinitial, hmiddle⟩ := hstart (state.enter settings id "reduce" 3)
      obtain ⟨begun, hforced, hbegun⟩ := hlist next hroom middle
      have hquiet := hbegun.trans hmiddle
      have hrepeats : Repeats next _ _ [body.operand settings, list.operand settings,
        start.operand settings] _ _ _ := .reduce hinitial hforced
      have hran := Operand.gather_resemble (operand_resembles settings (inside next) honce hbody rfl) initial items
        ((State.Resembles.of_agrees_enter hquiet).weaken [gatheredName, itemName])
      exact resemble_of_repeats hroom id label offset hrepeats hquiet hran

end Node

section Splits

variable {settings : Settings} {once : Node} {room : Option Nat} {items more : List Value} {state : State}
  {f : Function} {whole first second : Node}

/-- Where there is no room for the calls both are cut off. -/
theorem EndsAsBoth.of_deeper_eq_none {join : Value → Value → Value → Prop} {given : List Value}
    {after : Outcome} (hroom : deeper room = none)
    (hwhole : once.RepeatedBy settings room f (items ++ more) given whole)
    (hfirst : once.RepeatedBy settings room f items given first) :
    EndsAsBoth join (whole.force settings room state) (first.force settings room state) after := by
  have hcut {items : List Value} {node : Node} (h : once.RepeatedBy settings room f items given node) :
      node.force settings room state = (.error .tooDeep, state) := by
    cases h with
    | call => rw [Node.force, hroom]
  rw [hcut hwhole, hcut hfirst]
  exact .first rfl (.refl [] _)

/-- Repetitions that make something of the values of their rounds. -/
theorem EndsAsBoth.of_repeats (honce : once.Direct) {value : List Value → Value}
    {join : Value → Value → Value → Prop}
    (hjoin : ∀ values others, join (value values) (value others) (value (values ++ others)))
    (hrepeats : ∀ {next : Option Nat} {items : List Value} {before begun : State} {body list : Operand}
      {binding : Option String}, list.force (inside next) before = (.ok (.list items binding), begun) →
        Repeats next before f [body, list] [itemName] begun
          (.ofRounds value (body.rounds (inside next) items begun)))
    (hwhole : once.RepeatedBy settings room f (items ++ more) [] whole)
    (hfirst : once.RepeatedBy settings room f items [] first)
    (hsecond : once.RepeatedBy settings room f more [] second) :
    EndsAsBoth join (whole.force settings room state) (first.force settings room state)
      (second.force settings room (first.force settings room state).2) := by
  cases hroom : deeper room with
  | none => exact .of_deeper_eq_none hroom hwhole hfirst
  | some next =>
    exact .of_rounds (Node.operand_resembles settings (inside next) honce rfl rfl) hjoin
      (hwhole.resemble_rounds hroom honce hrepeats state) (hfirst.resemble_rounds hroom honce hrepeats state)
      (hsecond.resemble_rounds hroom honce hrepeats _)

/-- Repeating a body over two lists, one after the other, ends as repeating it over both as one list: the lists
of `map` are joined, the counts of `for` are added, and `reduce` goes on from what it gathered. -/
theorem Node.repetitions_split (honce : once.Direct) (settings : Settings) (room : Option Nat)
    (items more : List Value) (state : State) :
    let map := once.RepeatedBy settings room (Library.lazyFunction "map" 2 Library.mapPlan)
    let count := once.RepeatedBy settings room (Library.lazyFunction "for" 2 Library.forPlan)
    let reduce := once.RepeatedBy settings room (Library.lazyFunction "reduce" 3 Library.reduce)
    let after (node : Node) := (node.force settings room state).2
    (∀ whole first second : Node, map (items ++ more) [] whole → map items [] first → map more [] second →
      EndsAsBoth Value.Joined (whole.force settings room state) (first.force settings room state)
        (second.force settings room (after first))) ∧
    (∀ whole first second : Node, count (items ++ more) [] whole → count items [] first →
      count more [] second →
      EndsAsBoth Value.Summed (whole.force settings room state) (first.force settings room state)
        (second.force settings room (after first))) ∧
    ∀ (initial : Value) (whole first second : Node), reduce (items ++ more) [initial] whole →
      reduce items [initial] first →
      (∀ gathered, (first.force settings room state).1 = .ok gathered → reduce more [gathered] second) →
      EndsAsBoth (fun _ other total => total = other) (whole.force settings room state)
        (first.force settings room state) (second.force settings room (after first)) := by
  intro map count reduce after
  refine ⟨?_, ?_, ?_⟩
  · intro whole first second hwhole hfirst hsecond
    refine .of_repeats honce (fun values others => ?_) (fun hlist => .map hlist) hwhole hfirst hsecond
    exact ⟨values, others, rfl, rfl, rfl⟩
  · intro whole first second hwhole hfirst hsecond
    refine .of_repeats honce (fun values others => ?_) (fun hlist => .for hlist) hwhole hfirst hsecond
    refine ⟨values.countP Value.truth, others.countP Value.truth, rfl, rfl, ?_⟩
    rw [countTrue, List.countP_append]
  · intro initial whole first second hwhole hfirst hsecond
    cases hroom : deeper room with
    | none => exact .of_deeper_eq_none hroom hwhole hfirst
    | some next =>
      exact .of_gather (Node.operand_resembles settings (inside next) honce rfl rfl)
        (hwhole.resemble_gather hroom honce state) (hfirst.resemble_gather hroom honce state)
        fun gathered hgathered => (hsecond gathered hgathered).resemble_gather hroom honce _

end Splits

/-- Printing each item, and exchanging it with what is gathered, through one list or through two. -/
theorem Node.exchanges_split :
    let settings : Settings := ⟨.standard, false, false, {}⟩
    let body : Node :=
      .call 5 "print" (Library.eagerFunction "print" 1 Library.print) 0
        [.operation 4 "<>" (Library.binaryOperator "<>" 7 false Library.swap) 10
          [.reference 0 "acc" 6, .reference 1 "_" 13]]
    let items (values : List Value) : Node := .constant 7 "items" (.list values none)
    let map (values : List Value) : Node :=
      .call 8 "map" (Library.lazyFunction "map" 2 Library.mapPlan) 0 [body, items values]
    let count (values : List Value) : Node :=
      .call 8 "for" (Library.lazyFunction "for" 2 Library.forPlan) 0 [body, items values]
    let reduce (values : List Value) (initial : Value) : Node :=
      .call 9 "reduce" (Library.lazyFunction "reduce" 3 Library.reduce) 0
        [body, items values, .constant 8 "initial" initial]
    let one := [Value.ofNat 1, .ofNat 2]
    let other := [Value.ofNat 3]
    let state := State.ofEnvironment .empty
    let ended (node : Node) : Outcome := node.force settings none state
    let resumed (first second : Node) : Outcome := second.force settings none (ended first).2
    let gathered := (Value.ofNat 2).boundTo "acc"
    EndsAsBoth Value.Joined (ended (map (one ++ other))) (ended (map one)) (resumed (map one) (map other)) ∧
      EndsAsBoth Value.Summed (ended (count (one ++ other))) (ended (count one))
        (resumed (count one) (count other)) ∧
      EndsAsBoth (fun _ other total => total = other) (ended (reduce (one ++ other) .zero))
        (ended (reduce one .zero)) (resumed (reduce one .zero) (reduce other gathered)) ∧
      (ended (reduce one .zero)).1 = .ok gathered ∧
      Report.linesOf (ended (reduce (one ++ other) .zero)).2.trail =
        [⟨.output, "1"⟩, ⟨.output, "2"⟩, ⟨.output, "3"⟩] := by
  intro settings body items map count reduce one other state ended resumed gathered
  have hread : Registry.standard.freeze.treeOf .standard "print(acc <> _)" = .ok ⟨body, 7⟩ := rfl
  have hdirect : body.Direct := Registry.direct_of_treeOf Registry.standard_confined hread
  have hgathered : (ended (reduce one .zero)).1 = .ok gathered := rfl
  have hitems (values : List Value) (next : Option Nat) (_ : deeper none = some next) :
      ((items values).operand settings).Gives (inside next) (.list values none) :=
    gives_constant settings (inside next) 7 "items" (.list values none)
  have hmap (values : List Value) : body.RepeatedBy settings none _ values [] (map values) :=
    .call 8 "map" 0 rfl (hitems values) fun _ _ => .nil
  have hcount (values : List Value) : body.RepeatedBy settings none _ values [] (count values) :=
    .call 8 "for" 0 rfl (hitems values) fun _ _ => .nil
  have hreduce (values : List Value) (initial : Value) :
      body.RepeatedBy settings none _ values [initial] (reduce values initial) :=
    .call 9 "reduce" 0 rfl (hitems values) fun next _ =>
      .cons (gives_constant settings (inside next) 8 "initial" initial) .nil
  obtain ⟨hmaps, hcounts, hreduces⟩ := Node.repetitions_split hdirect settings none one other state
  refine ⟨?_, ?_, ?_, hgathered, ?_⟩
  · exact hmaps (map (one ++ other)) (map one) (map other) (hmap _) (hmap _) (hmap _)
  · exact hcounts (count (one ++ other)) (count one) (count other) (hcount _) (hcount _) (hcount _)
  · refine hreduces .zero (reduce (one ++ other) .zero) (reduce one .zero) (reduce other gathered)
      (hreduce _ _) (hreduce _ _) fun value hvalue => ?_
    obtain rfl : gathered = value := Except.ok.inj (hgathered.symm.trans hvalue)
    exact hreduce other gathered
  · decide +kernel

end Formula
