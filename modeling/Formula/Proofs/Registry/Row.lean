import Formula.Proofs.Registry.Keys
import Formula.Registry.Row

/-! # What calls leave of registries

A call that is refused leaves the registry as it was, and an accepted registration changes one key of one
table. A closed registry stays as it is for good. A copy and its original go different ways.
-/
namespace Formula

namespace Registry

variable {registry : Registry}

def add (registry : Registry) : Item → Except Failure Registry
  | .operator op => registry.addOperator op
  | .function name arity behaviour => registry.addBehaviour name arity behaviour
  | .constant name value => registry.addConstant name value

theorem register_eq (registry : Registry) (registration : Registration) :
    registry.register registration = registry.add registration.item := by
  cases registration <;> rfl

/-- Every check comes before the writing. -/
theorem enter_on (registry : Registry) (item : Item) : (enter item).on registry =
    match registry.add item with
    | .ok next => (.ok (), next)
    | .error failure => (.error failure, registry) := by
  obtain ⟨operators, functions, constants, frozen⟩ := registry
  cases item with
  | operator op =>
    cases frozen with
    | true => rfl
    | false =>
      cases hsymbol : isSymbol op.symbol <;>
        simp [enter, Call.on, checkOpen, checkSymbol, add, addOperator, hsymbol] <;> rfl
  | function name arity behaviour =>
    cases frozen with
    | true => rfl
    | false =>
      cases hname : isName name <;>
        simp [enter, Call.on, checkOpen, checkName, add, addBehaviour, hname] <;> rfl
  | constant name value => cases frozen <;> rfl

theorem add_of_frozen (h : registry.frozen = true) (item : Item) :
    registry.add item = .error (.of .frozen) := by
  cases item with
  | operator op => rw [add, addOperator, if_pos h]
  | function name arity behaviour => rw [add, addBehaviour, if_pos h]
  | constant name value => rw [add, addConstant, if_pos h]

end Registry

namespace Item

variable {registry next : Registry} {item : Item}

/-- The item stands in its table under its own key, and nothing else is different. -/
def Alters (registry next : Registry) : Item → Prop
  | .operator op =>
    ∃ operators, registry.operators.Sets operators op.key op ∧ next = { registry with operators }
  | .function name arity behaviour =>
    ∃ functions, registry.functions.Sets functions (Text.lower name) ⟨Text.lower name, arity, behaviour⟩ ∧
      next = { registry with functions }
  | .constant name value =>
    ∃ constants, registry.constants.Sets constants name value ∧ next = { registry with constants }

theorem alters_of_add (h : registry.add item = .ok next) : item.Alters registry next := by
  cases item with
  | operator op =>
    obtain ⟨-, -, hnext⟩ := Registry.addOperator_inversion h
    exact ⟨_, Table.sets_insert _ _ _, hnext⟩
  | function name arity behaviour =>
    obtain ⟨-, hnext⟩ := Registry.addBehaviour_inversion h
    exact ⟨_, Table.sets_insert _ _ _, hnext⟩
  | constant name value =>
    obtain ⟨-, hnext⟩ := Registry.addConstant_inversion h
    exact ⟨_, Table.sets_insert _ _ _, hnext⟩

theorem Alters.frozen_eq (h : item.Alters registry next) : next.frozen = registry.frozen := by
  cases item with
  | operator | function | constant =>
    obtain ⟨_, -, rfl⟩ := h
    rfl

def valid : Item → Bool
  | .operator op => Registry.isSymbol op.symbol
  | .function name _ _ => Registry.isName name
  | .constant _ _ => true

theorem exists_add (hopen : registry.frozen = false) (hvalid : item.valid = true) :
    ∃ next, registry.add item = .ok next := by
  have hnotFrozen : ¬ registry.frozen = true := by simp [hopen]
  cases item with
  | operator op =>
    have hsymbol : Registry.isSymbol op.symbol = true := hvalid
    exact ⟨_, by rw [Registry.add, Registry.addOperator, if_neg hnotFrozen, hsymbol]; rfl⟩
  | function name arity behaviour =>
    have hname : Registry.isName name = true := hvalid
    exact ⟨_, by rw [Registry.add, Registry.addBehaviour, if_neg hnotFrozen, hname]; rfl⟩
  | constant name value => exact ⟨_, by rw [Registry.add, Registry.addConstant, if_neg hnotFrozen]⟩

end Item

namespace Registry

variable {registry : Registry} {registrations : List Registration}

theorem enterAll_cons_on (registry : Registry) (registration : Registration) (rest : List Registration) :
    (enterAll (registration :: rest)).on registry =
      match registry.add registration.item with
      | .ok next => (enterAll rest).on next
      | .error failure => (.error failure, registry) := by
  have hbind : (enterAll (registration :: rest)).on registry =
      match (enter registration.item).on registry with
      | (.ok (), next) => (enterAll rest).on next
      | (.error failure, next) => (.error failure, next) := by
    simp only [enterAll, Call.on, ExceptT.run_bind, StateT.run_bind]
    obtain ⟨_ | _, next⟩ := (enter registration.item).run.run registry
    · rfl
    · rfl
  rw [hbind, enter_on]
  cases registry.add registration.item <;> rfl

theorem load_cons (registry : Registry) (registration : Registration) (rest : List Registration) :
    registry.load (registration :: rest) =
      match registry.add registration.item with
      | .ok next => next.load rest
      | .error failure => .error failure := by
  rw [load, register_eq]
  cases registry.add registration.item <;> rfl

/-- A library of items that registries take is taken whole by an open one. -/
theorem exists_enterAll (hopen : registry.frozen = false)
    (hvalid : ∀ registration ∈ registrations, registration.item.valid = true) :
    ∃ next, registry.load registrations = .ok next ∧ (enterAll registrations).on registry = (.ok (), next) := by
  induction registrations generalizing registry with
  | nil => exact ⟨registry, rfl, rfl⟩
  | cons registration rest ih =>
    obtain ⟨hfirst, hrest⟩ := List.forall_mem_cons.mp hvalid
    obtain ⟨middle, hmiddle⟩ := Item.exists_add hopen hfirst
    have hstill : middle.frozen = false := (Item.alters_of_add hmiddle).frozen_eq.trans hopen
    rw [enterAll_cons_on, load_cons, hmiddle]
    exact ih hstill hrest

theorem valid_extras : ∀ registration ∈ Sample.extras, registration.item.valid = true := by
  simp only [Sample.extras, List.forall_mem_cons, List.not_mem_nil, false_implies, implies_true, and_true]
  decide +kernel

/-- A closed registry takes nothing of a library. -/
theorem enterAll_of_frozen (h : registry.frozen = true) (registration : Registration) (rest : List Registration) :
    (enterAll (registration :: rest)).on registry = (.error (.of .frozen), registry) := by
  rw [enterAll_cons_on, add_of_frozen h]

theorem Reachable.enterAll (h : Reachable registry) (registrations : List Registration) :
    Reachable ((enterAll registrations).on registry).2 := by
  induction registrations generalizing registry with
  | nil => exact h
  | cons registration rest ih =>
    rw [enterAll_cons_on]
    split
    next middle hmiddle => exact ih (h.register ((register_eq registry registration).trans hmiddle))
    next => exact h

end Registry

namespace Demand

variable {registry next : Registry} {failure : Failure}

theorem register_on (registry : Registry) (registration : Registration) :
    (Demand.register registration).call.on registry =
      match registry.register registration with
      | .ok next => (.ok (), next)
      | .error failure => (.error failure, registry) := by
  rw [Registry.register_eq]
  exact Registry.enter_on registry registration.item

/-- The sample library is taken whole, or nothing of it is. -/
theorem loadExtras_on (registry : Registry) : Demand.loadExtras.call.on registry =
    match registry.load Sample.extras with
    | .ok next => (.ok (), next)
    | .error failure => (.error failure, registry) := by
  have hcall : Demand.loadExtras.call = Registry.enterAll Sample.extras := rfl
  rw [hcall]
  cases hfrozen : registry.frozen with
  | true =>
    rw [Sample.extras, Registry.enterAll_of_frozen hfrozen, Registry.load_cons, Registry.add_of_frozen hfrozen]
  | false =>
    obtain ⟨loaded, hload, hentered⟩ := Registry.exists_enterAll hfrozen Registry.valid_extras
    rw [hentered, hload]

theorem unchanged_of_refused {demand : Demand} (h : demand.call.on registry = (.error failure, next)) :
    next = registry := by
  cases demand with
  | register registration =>
    rw [register_on] at h
    split at h
    · cases h
    · exact (Prod.ext_iff.mp h).2.symm
  | loadExtras =>
    rw [loadExtras_on] at h
    split at h
    · cases h
    · exact (Prod.ext_iff.mp h).2.symm
  | freeze => cases h
  | copy => cases h

theorem register_on_of_frozen (h : registry.frozen = true) (registration : Registration) :
    (Demand.register registration).call.on registry = (.error (.of .frozen), registry) := by
  rw [register_on, Registry.register_eq, Registry.add_of_frozen h]

theorem loadExtras_on_of_frozen (h : registry.frozen = true) :
    Demand.loadExtras.call.on registry = (.error (.of .frozen), registry) :=
  Registry.enterAll_of_frozen h _ _

/-- Nothing changes a closed registry. -/
theorem on_of_frozen (h : registry.frozen = true) (demand : Demand) : (demand.call.on registry).2 = registry := by
  cases demand with
  | register registration => rw [register_on_of_frozen h]
  | loadExtras => rw [loadExtras_on_of_frozen h]
  | freeze =>
    have hfreeze : registry.freeze = registry := by rw [Registry.freeze, ← h]
    exact hfreeze
  | copy => rfl

theorem shape_of_frozen (h : registry.frozen = true) (demands : List Demand) :
    shape registry demands = registry := by
  induction demands with
  | nil => rfl
  | cons demand rest ih => rw [shape, on_of_frozen h, ih]

theorem reachable_on (h : registry.Reachable) (demand : Demand) : (demand.call.on registry).2.Reachable := by
  cases demand with
  | register registration =>
    rw [register_on]
    split
    next next hnext => exact h.register hnext
    next => exact h
  | loadExtras => exact h.enterAll Sample.extras
  | freeze => exact h.freeze
  | copy => exact h

end Demand

namespace Row

variable {row : List Registry} {registry : Registry} {place : Nat}

theorem lt_of_getElem? (h : row[place]? = some registry) : place < row.length :=
  (List.getElem?_eq_some_iff.mp h).choose

theorem set_of_getElem? (h : row[place]? = some registry) : row.set place registry = row := by
  obtain ⟨hplace, rfl⟩ := List.getElem?_eq_some_iff.mp h
  exact List.set_getElem_self hplace

theorem serve_at (h : row[place]? = some registry) (demand : Demand) :
    serve row ⟨place, demand⟩ = ((demand.call.on registry).1,
      row.set place (demand.call.on registry).2 ++ demand.copies registry) := by
  simp only [serve, h]

theorem length_le_serve (row : List Registry) (request : Request) :
    row.length ≤ (serve row request).2.length := by
  unfold serve
  split <;> simp

/-- A request changes the registry that it is made on, and no other. -/
theorem getElem?_serve (h : place < row.length) (request : Request) :
    (serve row request).2[place]? =
      if request.place = place then row[place]?.map fun registry => (request.demand.call.on registry).2
      else row[place]? := by
  obtain ⟨other, demand⟩ := request
  unfold serve
  dsimp only
  split
  next hnone =>
    have hfar : row.length ≤ other := List.getElem?_eq_none_iff.mp hnone
    rw [if_neg (by omega)]
  next registry hregistry =>
    rw [List.getElem?_append_left (by simpa using h), List.getElem?_set]
    split
    next heq =>
      subst heq
      rw [if_pos h, hregistry]
      rfl
    next => rfl

/-- What becomes of a registry depends on the demands on it alone. -/
theorem getElem?_after (h : place < row.length) (requests : List Request) :
    (after row requests)[place]? = row[place]?.map fun registry =>
      Demand.shape registry (demandsAt place requests) := by
  induction requests generalizing row with
  | nil => simp [after, demandsAt, Demand.shape]
  | cons request rest ih =>
    rw [after, ih (Nat.lt_of_lt_of_le h (length_le_serve row request)), getElem?_serve h]
    unfold demandsAt
    split
    next heq =>
      rw [List.filter_cons_of_pos (by simpa using heq), Option.map_map]
      rfl
    next hne => rw [List.filter_cons_of_neg (by simpa using hne)]

theorem reachable_serve (h : ∀ registry ∈ row, registry.Reachable) (request : Request) :
    ∀ registry ∈ (serve row request).2, registry.Reachable := by
  unfold serve
  split
  · exact h
  next found hfound =>
    have hreachable := h found (List.mem_of_getElem? hfound)
    intro registry hmem
    rcases List.mem_append.mp hmem with hset | hcopy
    · rcases List.mem_or_eq_of_mem_set hset with hold | rfl
      · exact h registry hold
      · exact Demand.reachable_on hreachable request.demand
    · cases hdemand : request.demand with
      | copy =>
        rw [hdemand] at hcopy
        obtain rfl := List.mem_singleton.mp hcopy
        exact hreachable.copy
      | register | loadExtras | freeze =>
        rw [hdemand] at hcopy
        cases hcopy

theorem reachable_after (h : ∀ registry ∈ row, registry.Reachable) (requests : List Request) :
    ∀ registry ∈ after row requests, registry.Reachable := by
  induction requests generalizing row with
  | nil => exact h
  | cons request rest ih => exact ih (reachable_serve h request)

/-- A refused request leaves the row as it was. -/
theorem unchanged_of_refused {request : Request} {failure : Failure} {next : List Registry}
    (h : serve row request = (.error failure, next)) : next = row := by
  obtain ⟨place, demand⟩ := request
  cases hregistry : row[place]? with
  | none =>
    simp only [serve, hregistry] at h
    cases h
  | some registry =>
    rw [serve_at hregistry] at h
    obtain ⟨hanswer, rfl⟩ := Prod.mk.inj h
    have hsame : (demand.call.on registry).2 = registry := Demand.unchanged_of_refused (Prod.ext hanswer rfl)
    have hcopies : demand.copies registry = [] := by
      cases demand with
      | copy => cases hanswer
      | register | loadExtras | freeze => rfl
    rw [hsame, hcopies, List.append_nil, set_of_getElem? hregistry]

/-- An operator of the other kind stays, even one of the same symbol. -/
theorem mem_of_alters {next : Registry} {op : Operator} (hreachable : registry.Reachable)
    (h : (Item.operator op).Alters registry next) (hsymbol : Registry.isSymbol op.symbol = true)
    {pair : String × Operator} (hpair : pair ∈ registry.operators.entries) (hkind : pair.2.unary ≠ op.unary) :
    pair ∈ next.operators.entries := by
  obtain ⟨operators, hsets, rfl⟩ := h
  obtain ⟨hkey, hother⟩ := hreachable.filed hpair
  have hne : pair.1 ≠ op.key := hkey ▸ Registry.key_ne_key hother hsymbol hkind
  have hkept : pair ∈ (registry.operators.erase op.key).entries :=
    List.mem_filter.mpr ⟨hpair, by simpa using hne⟩
  rw [← hsets.others] at hkept
  exact (List.mem_filter.mp hkept).1

theorem serve_register (h : row[place]? = some registry) (registration : Registration) :
    serve row ⟨place, .register registration⟩ =
      match registry.register registration with
      | .ok next => (.ok (), row.set place next)
      | .error failure => (.error failure, row) := by
  rw [serve_at h, Demand.register_on]
  split
  next => exact congrArg _ (List.append_nil _)
  next => rw [set_of_getElem? h]; exact congrArg _ (List.append_nil row)

theorem serve_loadExtras (h : row[place]? = some registry) :
    serve row ⟨place, .loadExtras⟩ =
      match registry.load Sample.extras with
      | .ok next => (.ok (), row.set place next)
      | .error failure => (.error failure, row) := by
  rw [serve_at h, Demand.loadExtras_on]
  split
  next => exact congrArg _ (List.append_nil _)
  next => rw [set_of_getElem? h]; exact congrArg _ (List.append_nil row)

/-- What is closed stays closed, with the entries that it had. -/
theorem after_freeze (h : row[place]? = some registry) (later : List Request) :
    (after row (⟨place, .freeze⟩ :: later))[place]? = some { registry with frozen := true } := by
  have hserved : (serve row ⟨place, .freeze⟩).2[place]? = some registry.freeze := by
    rw [getElem?_serve (lt_of_getElem? h), if_pos rfl, h]
    rfl
  rw [after, getElem?_after (lt_of_getElem? hserved), hserved, Option.map_some]
  exact congrArg some (Demand.shape_of_frozen rfl _)

theorem refuses_of_frozen (h : row[place]? = some registry) (hfrozen : registry.frozen = true) :
    (∀ registration, serve row ⟨place, .register registration⟩ = (.error (.of .frozen), row)) ∧
      serve row ⟨place, .loadExtras⟩ = (.error (.of .frozen), row) := by
  constructor
  · intro registration
    rw [serve_at h, Demand.register_on_of_frozen hfrozen, set_of_getElem? h]
    exact congrArg _ (List.append_nil row)
  · rw [serve_at h, Demand.loadExtras_on_of_frozen hfrozen, set_of_getElem? h]
    exact congrArg _ (List.append_nil row)

/-- A copy and its original each become what is demanded of them alone. -/
theorem copy_apart (h : row[place]? = some registry) :
    serve row ⟨place, .copy⟩ = (.ok (), row ++ [{ registry with frozen := false }]) ∧
    ∀ later, (after (row ++ [{ registry with frozen := false }]) later)[place]? =
        some (Demand.shape registry (demandsAt place later)) ∧
      (after (row ++ [{ registry with frozen := false }]) later)[row.length]? =
        some (Demand.shape { registry with frozen := false } (demandsAt row.length later)) := by
  have hplace := lt_of_getElem? h
  refine ⟨?_, fun later => ⟨?_, ?_⟩⟩
  · rw [serve_at h]
    exact congrArg (fun kept => (_, kept ++ _)) (set_of_getElem? h)
  · rw [getElem?_after (by simp; omega), List.getElem?_append_left hplace, h]
    rfl
  · rw [getElem?_after (by simp), List.getElem?_concat_length]
    rfl

/-- Whatever is asked of the standard registry and of its copies, each operator stands under its own key, and
operators of the two kinds never under one. What is refused changes nothing, and an accepted registration
changes one key of one table. A closed registry refuses all further entries and keeps those that it has; a
copy is open, has the entries of its original, and is apart from it from then on. -/
theorem requests_keep_tables (requests : List Request) :
    let row := after [Registry.standard] requests
    (∀ registry ∈ row, registry.operators.keys.Nodup ∧
      (∀ pair ∈ registry.operators.entries, pair.1 = pair.2.key) ∧
      ∀ pair ∈ registry.operators.entries, ∀ other ∈ registry.operators.entries,
        pair.2.unary ≠ other.2.unary → pair.1 ≠ other.1) ∧
    (∀ request failure next, serve row request = (.error failure, next) → next = row) ∧
    (∀ place (registry : Registry) registration, row[place]? = some registry →
      match registry.register registration with
      | .error failure => serve row ⟨place, .register registration⟩ = (.error failure, row)
      | .ok changed => serve row ⟨place, .register registration⟩ = (.ok (), row.set place changed) ∧
        registration.item.Alters registry changed ∧
        ∀ op, registration.item = .operator op →
          ∀ pair ∈ registry.operators.entries, pair.2.unary ≠ op.unary → pair ∈ changed.operators.entries) ∧
    (∀ place (registry : Registry), row[place]? = some registry →
      match registry.load Sample.extras with
      | .error failure => serve row ⟨place, .loadExtras⟩ = (.error failure, row)
      | .ok loaded => serve row ⟨place, .loadExtras⟩ = (.ok (), row.set place loaded)) ∧
    (∀ place registry later, row[place]? = some registry →
      (after row (⟨place, .freeze⟩ :: later))[place]? = some { registry with frozen := true } ∧
      (∀ registration, serve (after row (⟨place, .freeze⟩ :: later)) ⟨place, .register registration⟩ =
        (.error (.of .frozen), after row (⟨place, .freeze⟩ :: later))) ∧
      serve (after row (⟨place, .freeze⟩ :: later)) ⟨place, .loadExtras⟩ =
        (.error (.of .frozen), after row (⟨place, .freeze⟩ :: later))) ∧
    ∀ place registry, row[place]? = some registry →
      serve row ⟨place, .copy⟩ = (.ok (), row ++ [{ registry with frozen := false }]) ∧
      ∀ later, (after (row ++ [{ registry with frozen := false }]) later)[place]? =
          some (Demand.shape registry (demandsAt place later)) ∧
        (after (row ++ [{ registry with frozen := false }]) later)[row.length]? =
          some (Demand.shape { registry with frozen := false } (demandsAt row.length later)) := by
  intro row
  have hreachable : ∀ registry ∈ row, registry.Reachable :=
    reachable_after (fun registry hmem => List.mem_singleton.mp hmem ▸ .standard) requests
  refine ⟨?entries, fun _ _ _ => unchanged_of_refused, ?registered, ?loaded, ?closed, fun _ _ => copy_apart⟩
  case entries =>
    intro registry hregistry
    have hreached := hreachable registry hregistry
    refine ⟨hreached.nodup_keys, fun pair hpair => (hreached.filed hpair).1, ?_⟩
    intro pair hpair other hother hkind
    obtain ⟨hkey, hsymbol⟩ := hreached.filed hpair
    obtain ⟨hsecond, hvalid⟩ := hreached.filed hother
    rw [hkey, hsecond]
    exact Registry.key_ne_key hsymbol hvalid hkind
  case registered =>
    intro place registry registration hplace
    rw [serve_register hplace]
    cases hadd : registry.register registration with
    | error failure => rfl
    | ok changed =>
      rw [Registry.register_eq] at hadd
      refine ⟨rfl, Item.alters_of_add hadd, ?_⟩
      intro op hitem pair hpair hkind
      rw [hitem] at hadd
      obtain ⟨-, hsymbol, -⟩ := Registry.addOperator_inversion hadd
      exact mem_of_alters (hreachable registry (List.mem_of_getElem? hplace)) (Item.alters_of_add hadd)
        hsymbol hpair hkind
  case loaded =>
    intro place registry hplace
    rw [serve_loadExtras hplace]
    cases registry.load Sample.extras <;> rfl
  case closed =>
    intro place registry later hplace
    have hclosed := after_freeze hplace later
    exact ⟨hclosed, refuses_of_frozen hclosed rfl⟩

/-- Another binary minus leaves the unary one where it is, in a row of the standard registry and its copy. -/
theorem anotherMinus_keeps_unary :
    ∃ changed, Registry.standard.register (.binary "-" 20 true Sample.twice) = .ok changed ∧
      serve (after [.standard] [⟨0, .copy⟩]) ⟨0, .register (.binary "-" 20 true Sample.twice)⟩ =
        (.ok (), (after [.standard] [⟨0, .copy⟩]).set 0 changed) ∧
      ∀ pair ∈ Registry.standard.operators.entries, pair.2.unary = true → pair ∈ changed.operators.entries := by
  have hvalid : (Registration.binary "-" 20 true Sample.twice).item.valid = true := by decide +kernel
  have hopen : Registry.standard.frozen = false := rfl
  obtain ⟨changed, hadd⟩ := Item.exists_add hopen hvalid
  rw [← Registry.register_eq] at hadd
  have hserved := (requests_keep_tables [⟨0, .copy⟩]).2.2.1 0 .standard (.binary "-" 20 true Sample.twice) rfl
  rw [hadd] at hserved
  obtain ⟨hanswer, -, hkept⟩ := hserved
  exact ⟨changed, hadd, hanswer, fun pair hpair hunary => hkept _ rfl pair hpair (by simp [hunary])⟩

end Row

end Formula
