import Formula.Proofs.Expression.Bench
import Formula.Proofs.Expression.Caching
import Formula.Proofs.Registry.Entry
import Formula.Proofs.Tree.Calls

/-! # How many arguments calls have

The notation of an expression is checked when it is first asked for; its calls find their functions when
the tree is built, which closes the registry. In between a function may be registered anew. So a call in
a tree has as many arguments as its function takes, unless its name was given to another function after
the notation was kept.
-/
namespace Formula

namespace Registry

variable {registry next : Registry}

theorem freeze_of_frozen (h : registry.frozen = true) : registry.freeze = registry := by
  obtain ⟨operators, functions, constants, frozen⟩ := registry
  obtain rfl := h
  rfl

end Registry

namespace Expression

variable {registry : Registry} {expression after : Expression}

structure Progress (registry : Registry) (expression after : Expression) : Prop where
  settings : after.settings = expression.settings
  kept : ∀ rpn ∈ expression.rpn, after.rpn = some rpn
  valid : ∀ rpn ∈ after.rpn, expression.rpn = some rpn ∨ Rpn.validate registry rpn = .ok ()
  built : ∀ tree ∈ after.tree, expression.tree = some tree ∨ registry.frozen = true ∧
    ∃ rpn, after.rpn = some rpn ∧ Tree.ofRpn registry after.settings.context rpn = .ok tree

theorem Progress.of_same (registry : Registry) (hsettings : after.settings = expression.settings)
    (hrpn : after.rpn = expression.rpn) (htree : after.tree = expression.tree) :
    Progress registry expression after where
  settings := hsettings
  kept _ h := hrpn.trans h
  valid _ h := .inl (hrpn ▸ h)
  built _ h := .inl (htree ▸ h)

theorem scanned_progress (expression : Expression) (registry other : Registry) :
    Progress other expression (expression.scanned registry).2 := by
  unfold scanned
  split
  · exact .of_same other rfl rfl rfl
  · split <;> exact .of_same other rfl rfl rfl

theorem listed_progress (expression : Expression) (registry : Registry) :
    Progress registry expression (expression.listed registry).2 ∧
      ∀ rpn, (expression.listed registry).1 = .ok rpn → (expression.listed registry).2.rpn = some rpn := by
  unfold listed
  cases hkept : expression.rpn with
  | some rpn => exact ⟨.of_same registry rfl rfl rfl, fun _ h => hkept.trans (congrArg _ (Except.ok.inj h))⟩
  | none =>
    have hscanned := expression.scanned_progress registry registry
    have htree := expression.tree_scanned registry
    dsimp only
    generalize expression.scanned registry = outcome at hscanned htree
    obtain ⟨failure | tokens, middle⟩ := outcome
    · exact ⟨hscanned, nofun⟩
    · dsimp only
      cases hchecked : Rpn.checked registry tokens with
      | error failure => exact ⟨hscanned, nofun⟩
      | ok rpn =>
        obtain ⟨-, hvalid⟩ := Rpn.checked_eq_ok_iff.mp hchecked
        refine ⟨⟨hscanned.settings, ?_, ?_, fun tree h => .inl (htree ▸ h)⟩, ?_⟩
        · simp [hkept]
        · rintro _ ⟨⟩
          exact .inr hvalid
        · rintro _ ⟨⟩
          rfl

theorem built_progress (expression : Expression) (registry : Registry)
    (hclosed : expression.tree = none → registry.frozen = true) :
    Progress registry expression (expression.built registry).2 := by
  unfold built
  cases hkept : expression.tree with
  | some tree => exact .of_same registry rfl rfl rfl
  | none =>
    obtain ⟨hlisted, hrpn⟩ := expression.listed_progress registry
    dsimp only
    generalize expression.listed registry = outcome at hlisted hrpn
    obtain ⟨failure | rpn, middle⟩ := outcome
    · exact hlisted
    · dsimp only
      cases hbuilt : Tree.ofRpn registry middle.settings.context rpn with
      | error failure => exact hlisted
      | ok tree =>
        refine ⟨hlisted.settings, hlisted.kept, hlisted.valid, ?_⟩
        rintro _ ⟨⟩
        exact .inr ⟨hclosed hkept, rpn, hrpn rpn rfl, hbuilt⟩

theorem evaluate_progress (expression : Expression) (workspace : Workspace) :
    Progress (expression.evaluate workspace).workspace.registry expression
      (expression.evaluate workspace).expression := by
  rw [registry_after_evaluate]
  have hbuilt := expression.built_progress
    (if expression.tree.isSome then workspace.registry else workspace.registry.freeze)
    fun hnone => by rw [hnone]; rfl
  unfold evaluate
  dsimp only
  generalize expression.built _ = outcome at hbuilt
  obtain ⟨failure | tree, after⟩ := outcome
  · exact hbuilt
  · exact ⟨hbuilt.settings, hbuilt.kept, hbuilt.valid, hbuilt.built⟩

end Expression

namespace Bench

open Expression

/-- Doing one thing keeps the registry, closes it or extends it. The expressions that are there make
progress, and a new one has kept nothing yet. -/
structure Advances (task : Task) (bench next : Bench) : Prop where
  registry : next.workspace.registry = bench.workspace.registry ∨
    next.workspace.registry = bench.workspace.registry.freeze ∨
    ∃ registration, task = .register registration ∧
      bench.workspace.registry.register registration = .ok next.workspace.registry
  kept : ∀ (index : Nat) (expression : Expression), bench.expressions[index]? = some expression →
    ∃ after, next.expressions[index]? = some after ∧
      Progress next.workspace.registry expression after
  fresh : ∀ (index : Nat) (after : Expression), bench.expressions[index]? = none →
    next.expressions[index]? = some after → after.rpn = none ∧ after.tree = none

variable {bench next : Bench} {task : Task}

/-- The expressions stay as they are. -/
theorem Advances.of_same (hexpressions : next.expressions = bench.expressions)
    (hregistry : next.workspace.registry = bench.workspace.registry ∨
      next.workspace.registry = bench.workspace.registry.freeze ∨
      ∃ registration, task = .register registration ∧
        bench.workspace.registry.register registration = .ok next.workspace.registry) :
    Advances task bench next where
  registry := hregistry
  kept index expression h := ⟨expression, hexpressions ▸ h, .of_same _ rfl rfl rfl⟩
  fresh index after hnone hsome := by
    rw [hexpressions, hnone] at hsome
    cases hsome

theorem advances_revise (task : Task) (bench : Bench) (index : Nat)
    {work : Expression → Workspace → Expression × Workspace}
    (hregistry : ∀ expression,
      (work expression bench.workspace).2.registry = bench.workspace.registry ∨
        (work expression bench.workspace).2.registry = bench.workspace.registry.freeze)
    (hwork : ∀ expression, Progress (work expression bench.workspace).2.registry expression
      (work expression bench.workspace).1) :
    Advances task bench (bench.revise index work) := by
  unfold revise
  cases hindex : bench.expressions[index]? with
  | none => exact .of_same rfl (.inl rfl)
  | some expression =>
    have hlength : index < bench.expressions.length := (List.getElem?_eq_some_iff.mp hindex).1
    refine ⟨(hregistry expression).imp_right .inl, fun other old hold => ?_, fun other after hnone hsome => ?_⟩
    · by_cases hother : other = index
      · subst hother
        obtain rfl := Option.some.inj (hindex.symm.trans hold)
        exact ⟨_, List.getElem?_set_self hlength, hwork expression⟩
      · refine ⟨old, ?_, .of_same _ rfl rfl rfl⟩
        exact (List.getElem?_set_ne (Ne.symm hother)).trans hold
    · by_cases hother : other = index
      · rw [hother, hindex] at hnone
        cases hnone
      · rw [List.getElem?_set_ne (Ne.symm hother), hnone] at hsome
        cases hsome

theorem advances (h : bench.perform task = .ok next) : Advances task bench next := by
  cases task with
  | make source settings =>
    obtain ⟨⟨expression, workspace⟩, hmade, h⟩ := exists_of_bind_eq_ok h
    obtain ⟨environment, -, rfl, rfl⟩ := make_inversion hmade
    obtain rfl := Except.ok.inj h
    refine ⟨.inl rfl, fun index old hold => ⟨old, ?_, .of_same _ rfl rfl rfl⟩, fun index after hnone hsome => ?_⟩
    · exact (List.getElem?_append_left (List.getElem?_eq_some_iff.mp hold).1).trans hold
    · rw [List.getElem?_append_right (List.getElem?_eq_none_iff.mp hnone)] at hsome
      obtain rfl := List.mem_singleton.mp (List.mem_of_getElem? hsome)
      exact ⟨rfl, rfl⟩
  | scan index =>
    obtain rfl := Except.ok.inj h
    exact advances_revise _ _ _ (fun _ => .inl rfl) fun expression => expression.scanned_progress _ _
  | list index =>
    obtain rfl := Except.ok.inj h
    exact advances_revise _ _ _ (fun _ => .inl rfl) fun expression => (expression.listed_progress _).1
  | evaluate index =>
    obtain rfl := Except.ok.inj h
    refine advances_revise _ _ _ (fun expression => ?_) fun expression => expression.evaluate_progress _
    dsimp only
    rw [registry_after_evaluate]
    split
    · exact .inl rfl
    · exact .inr rfl
  | assign index name datum =>
    obtain rfl := Except.ok.inj h
    refine advances_revise _ _ _ (fun expression => ?_) fun expression => ?_
    · split <;> exact .inl rfl
    · split <;> exact .of_same _ rfl rfl rfl
  | fetch name | enter environment memory =>
    obtain rfl := Except.ok.inj h
    exact .of_same rfl (.inl rfl)
  | register registration =>
    cases hregister : bench.workspace.registry.register registration with
    | ok registry =>
      simp only [perform, hregister] at h
      obtain rfl := Except.ok.inj h
      exact .of_same rfl (.inr (.inr ⟨registration, rfl, hregister⟩))
    | error failure =>
      simp only [perform, hregister] at h
      obtain rfl := Except.ok.inj h
      exact .of_same rfl (.inl rfl)

theorem performAll_append (bench : Bench) (tasks more : List Task) :
    bench.performAll (tasks ++ more) = bench.performAll tasks >>= fun middle => middle.performAll more := by
  induction tasks generalizing bench with
  | nil => rfl
  | cons task tasks ih =>
    rw [List.cons_append, performAll, performAll]
    cases bench.perform task with
    | ok next => exact ih next
    | error failure => rfl

theorem performAll_snoc {start : Bench} {tasks : List Task} (h : start.performAll tasks = .ok bench)
    (hnext : bench.perform task = .ok next) : start.performAll (tasks ++ [task]) = .ok next := by
  rw [performAll_append, h]
  change bench.perform task >>= pure = .ok next
  rw [hnext]
  rfl

def Lists (bench : Bench) (index : Nat) (rpn : List Token) : Prop :=
  ∃ expression, bench.expressions[index]? = some expression ∧ expression.rpn = some rpn

variable {start : Bench} {tasks : List Task} {index : Nat} {rpn : List Token}

theorem Lists.perform (h : bench.Lists index rpn) (hnext : bench.perform task = .ok next) :
    next.Lists index rpn := by
  obtain ⟨expression, hexpression, hrpn⟩ := h
  obtain ⟨after, hafter, hprogress⟩ := (advances hnext).kept index expression hexpression
  exact ⟨after, hafter, hprogress.kept rpn hrpn⟩

/-- What is kept at the bench was found on the way to it: notation was valid under the registry of its
time, and a tree was built under the registry that there is still. -/
structure Traced (start : Bench) (tasks : List Task) (bench : Bench) : Prop where
  reached : start.performAll tasks = .ok bench
  listed : ∀ index rpn, bench.Lists index rpn → ∃ before after earlier, tasks = before ++ after ∧
    start.performAll before = .ok earlier ∧ earlier.performAll after = .ok bench ∧
    earlier.Lists index rpn ∧ Rpn.validate earlier.workspace.registry rpn = .ok ()
  built : ∀ (index : Nat) (expression : Expression), bench.expressions[index]? = some expression →
    ∀ tree ∈ expression.tree, bench.workspace.registry.frozen = true ∧ ∃ rpn, expression.rpn = some rpn ∧
      Tree.ofRpn bench.workspace.registry expression.settings.context rpn = .ok tree

theorem traced_new (workspace : Workspace) : Traced ⟨workspace, []⟩ [] ⟨workspace, []⟩ where
  reached := rfl
  listed index rpn h := by
    obtain ⟨expression, hexpression, -⟩ := h
    cases hexpression
  built index expression h := by cases h

/-- A closed registry stays. -/
theorem Advances.registry_of_frozen (h : Advances task bench next)
    (hfrozen : bench.workspace.registry.frozen = true) :
    next.workspace.registry = bench.workspace.registry := by
  obtain hsame | hclosed | ⟨registration, -, hregister⟩ := h.registry
  · exact hsame
  · rw [hclosed, Registry.freeze_of_frozen hfrozen]
  · rw [(Registry.register_inversion hregister).1] at hfrozen
    cases hfrozen

theorem Traced.perform (h : Traced start tasks bench) (hnext : bench.perform task = .ok next) :
    Traced start (tasks ++ [task]) next := by
  have hadvances := advances hnext
  have hreached := performAll_snoc h.reached hnext
  refine ⟨hreached, fun index rpn hlists => ?_, fun index after hafter tree htree => ?_⟩
  · obtain ⟨after, hafter, hrpn⟩ := hlists
    have hnow (hvalid : Rpn.validate next.workspace.registry rpn = .ok ()) :
        ∃ before rest earlier, tasks ++ [task] = before ++ rest ∧
          start.performAll before = .ok earlier ∧ earlier.performAll rest = .ok next ∧
          earlier.Lists index rpn ∧ Rpn.validate earlier.workspace.registry rpn = .ok () :=
      ⟨tasks ++ [task], [], next, (List.append_nil _).symm, hreached, rfl, ⟨after, hafter, hrpn⟩, hvalid⟩
    cases hold : bench.expressions[index]? with
    | none =>
      rw [(hadvances.fresh index after hold hafter).1] at hrpn
      cases hrpn
    | some expression =>
      obtain ⟨other, hother, hprogress⟩ := hadvances.kept index expression hold
      obtain rfl := Option.some.inj (hafter.symm.trans hother)
      obtain hkept | hvalid := hprogress.valid rpn hrpn
      · obtain ⟨before, rest, earlier, rfl, hbefore, hrest, hlisted, hvalid⟩ :=
          h.listed index rpn ⟨expression, hold, hkept⟩
        exact ⟨before, rest ++ [task], earlier, List.append_assoc .., hbefore, performAll_snoc hrest hnext,
          hlisted, hvalid⟩
      · exact hnow hvalid
  · cases hold : bench.expressions[index]? with
    | none =>
      rw [(hadvances.fresh index after hold hafter).2] at htree
      cases htree
    | some expression =>
      obtain ⟨other, hother, hprogress⟩ := hadvances.kept index expression hold
      obtain rfl := Option.some.inj (hafter.symm.trans hother)
      obtain hkept | hbuilt := hprogress.built tree htree
      · obtain ⟨hfrozen, rpn, hrpn, hbuilt⟩ := h.built index expression hold tree hkept
        rw [hadvances.registry_of_frozen hfrozen, hprogress.settings]
        exact ⟨hfrozen, rpn, hprogress.kept rpn hrpn, hbuilt⟩
      · exact hbuilt

theorem Traced.performAll (h : Traced start tasks bench) {more : List Task} {last : Bench}
    (hlast : bench.performAll more = .ok last) : Traced start (tasks ++ more) last := by
  induction more generalizing tasks bench with
  | nil =>
    obtain rfl := Except.ok.inj hlast
    rw [List.append_nil]
    exact h
  | cons task more ih =>
    obtain ⟨next, hnext, hrest⟩ := exists_of_bind_eq_ok hlast
    rw [← List.singleton_append, ← List.append_assoc]
    exact ih (h.perform hnext) hrest

/-- Functions do not vanish. -/
theorem isSome_function?_performAll {last : Bench} (h : bench.performAll tasks = .ok last) {name : String}
    (hsome : (bench.workspace.registry.function? name).isSome = true) :
    (last.workspace.registry.function? name).isSome = true := by
  induction tasks generalizing bench with
  | nil =>
    obtain rfl := Except.ok.inj h
    exact hsome
  | cons task tasks ih =>
    obtain ⟨next, hnext, hrest⟩ := exists_of_bind_eq_ok h
    refine ih hrest ?_
    obtain hsame | hclosed | ⟨registration, -, hregister⟩ := (advances hnext).registry
    · rwa [hsame]
    · rwa [hclosed]
    · exact Registry.isSome_function?_register hregister hsome

/-- At this bench the registration gives a name to another function, while an expression keeps notation
that may call the one before. -/
structure Replaces (bench : Bench) (index : Nat) (rpn : List Token) (registration : Registration)
    (name : String) : Prop where
  lists : bench.Lists index rpn
  accepted : ∃ registry, bench.workspace.registry.register registration = .ok registry
  key : registration.functionKey? = some (Text.lower name)

/-- The function of a name stays until another one is registered under it. -/
theorem function?_performAll {last : Bench} (h : bench.performAll tasks = .ok last)
    (hlists : bench.Lists index rpn) (name : String) :
    last.workspace.registry.function? name = bench.workspace.registry.function? name ∨
      ∃ before registration after middle, tasks = before ++ .register registration :: after ∧
        bench.performAll before = .ok middle ∧ middle.Replaces index rpn registration name ∧
        middle.workspace.registry.function? name = bench.workspace.registry.function? name := by
  induction tasks generalizing bench with
  | nil =>
    obtain rfl := Except.ok.inj h
    exact .inl rfl
  | cons task tasks ih =>
    obtain ⟨next, hnext, hrest⟩ := exists_of_bind_eq_ok h
    have hstep : next.workspace.registry.function? name = bench.workspace.registry.function? name ∨
        ∃ registration, task = .register registration ∧
          bench.Replaces index rpn registration name := by
      obtain hsame | hclosed | ⟨registration, htask, hregister⟩ := (advances hnext).registry
      · exact .inl (by rw [hsame])
      · exact .inl (by rw [hclosed]; rfl)
      · by_cases hname : registration.functionKey? = some (Text.lower name)
        · exact .inr ⟨registration, htask, hlists, ⟨_, hregister⟩, hname⟩
        · exact .inl (Registry.function?_register hregister hname)
    obtain hkept | ⟨registration, rfl, hreplaces⟩ := hstep
    · obtain hlater | ⟨before, registration, after, middle, rfl, hbefore, hreplaces, hmiddle⟩ :=
        ih hrest (hlists.perform hnext)
      · exact .inl (hlater.trans hkept)
      · refine .inr ⟨task :: before, registration, after, middle, rfl, ?_, hreplaces, hmiddle.trans hkept⟩
        rw [performAll, hnext]
        exact hbefore
    · exact .inr ⟨[], registration, tasks, bench, rfl, rfl, hreplaces, rfl⟩

/-- Every call in a tree that was built at a bench is to the function that the registry has for its name.
It has as many arguments as this function takes, unless this name was registered again while the
expression kept its notation already; then it has as many as the function took that was replaced. -/
theorem calls_take_arguments {workspace : Workspace} (hbench : performAll ⟨workspace, []⟩ tasks = .ok bench)
    {expression : Expression} (hexpression : bench.expressions[index]? = some expression) {tree : Tree}
    (htree : expression.tree = some tree) {call : TreeCall} (hcall : call ∈ tree.root.calls) :
    bench.workspace.registry.function? call.label = some call.function ∧
      (call.function.variadic = true ∨ call.function.arity = call.arguments ∨
        ∃ before registration after earlier rpn, tasks = before ++ .register registration :: after ∧
          performAll ⟨workspace, []⟩ before = .ok earlier ∧ expression.rpn = some rpn ∧
          earlier.Replaces index rpn registration call.label ∧
          earlier.workspace.registry.Accepts call.label call.arguments) := by
  have htraced := (traced_new workspace).performAll hbench
  rw [List.nil_append] at htraced
  obtain ⟨-, rpn, hrpn, hbuilt⟩ := htraced.built index expression hexpression tree htree
  obtain ⟨before, rest, earlier, rfl, hbefore, hrest, hlists, hvalid⟩ :=
    htraced.listed index rpn ⟨expression, hexpression, hrpn⟩
  have hfunctions : ∀ name arguments, earlier.workspace.registry.Accepts name arguments →
      (bench.workspace.registry.function? name).isSome = true := by
    rintro name arguments ⟨f, hf, -⟩
    exact isSome_function?_performAll hrest (hf ▸ rfl)
  obtain ⟨hfunction, hvalidated⟩ := Tree.calls_of_ofRpn hfunctions hvalid hbuilt call hcall
  refine ⟨hfunction, ?_⟩
  obtain hkept | ⟨first, registration, after, middle, rfl, hfirst, hreplaces, hsame⟩ :=
    function?_performAll hrest hlists call.label
  · obtain ⟨f, hf, hcount⟩ := hvalidated
    rw [← hkept, hfunction] at hf
    obtain rfl := Option.some.inj hf
    cases hvariadic : call.function.variadic with
    | true => exact .inl rfl
    | false => exact .inr (.inl (hcount hvariadic).symm)
  · refine .inr (.inr ⟨before ++ first, registration, after, middle, rpn, ?_, ?_, hrpn, hreplaces, ?_⟩)
    · rw [List.append_assoc]
    · rw [performAll_append, hbefore]
      exact hfirst
    · obtain ⟨f, hf, hcount⟩ := hvalidated
      exact ⟨f, hsame.trans hf, hcount⟩

def replacement : List Task :=
  let count (_ : Settings) (values : List Value) : Plan := .done (.ofNat values.length)
  [.register (.function "f" 1 count), .make "f(1)" { context := ⟨34, .halfEven⟩ }, .list 0,
   .register (.function "f" 2 count), .evaluate 0]

def treeAfter (workspace : Workspace) (tasks : List Task) (index : Nat) : Option Tree :=
  (performAll ⟨workspace, []⟩ tasks).toOption.bind fun bench => bench.expressions[index]?.bind (·.tree)

theorem treeAfter_inversion {workspace : Workspace} {tree : Tree}
    (h : treeAfter workspace tasks index = some tree) :
    ∃ bench expression, performAll ⟨workspace, []⟩ tasks = .ok bench ∧
      bench.expressions[index]? = some expression ∧ expression.tree = some tree := by
  obtain ⟨bench, hbench, h⟩ := Option.bind_eq_some_iff.mp h
  obtain ⟨expression, hexpression, htree⟩ := Option.bind_eq_some_iff.mp h
  refine ⟨bench, expression, ?_, hexpression, htree⟩
  cases hall : performAll ⟨workspace, []⟩ tasks with
  | ok other =>
    rw [hall] at hbench
    exact congrArg _ (Option.some.inj hbench)
  | error failure =>
    rw [hall] at hbench
    cases hbench

theorem replacement_built : ∃ (bench : Bench) (expression : Expression) (tree : Tree) (call : TreeCall),
    performAll ⟨⟨{}, .empty, .empty⟩, []⟩ replacement = .ok bench ∧
      bench.expressions[0]? = some expression ∧ expression.tree = some tree ∧
      call ∈ tree.root.calls ∧ call.function.variadic = false ∧ call.function.arity = 2 ∧
      call.arguments = 1 := by
  have hcalls : (treeAfter ⟨{}, .empty, .empty⟩ replacement 0).map (fun tree =>
      tree.root.calls.map fun call => (call.function.variadic, call.function.arity, call.arguments)) =
        some [(false, 2, 1)] := by
    decide +kernel
  obtain ⟨tree, htree, hcalls⟩ := Option.map_eq_some_iff.mp hcalls
  obtain ⟨bench, expression, hbench, hexpression, htree⟩ := treeAfter_inversion htree
  obtain ⟨call, hcall, hmap⟩ := List.map_eq_singleton_iff.mp hcalls
  obtain ⟨hvariadic, hrest⟩ := Prod.mk.inj hmap
  obtain ⟨harity, harguments⟩ := Prod.mk.inj hrest
  exact ⟨bench, expression, tree, call, hbench, hexpression, htree, by simp [hcall], hvariadic, harity,
    harguments⟩

theorem replacement_misses_argument : ∃ (bench : Bench) (expression : Expression) (tree : Tree) (call : TreeCall),
    performAll ⟨⟨{}, .empty, .empty⟩, []⟩ replacement = .ok bench ∧
      bench.expressions[0]? = some expression ∧ expression.tree = some tree ∧
      call ∈ tree.root.calls ∧ call.function.variadic = false ∧ call.function.arity ≠ call.arguments := by
  obtain ⟨bench, expression, tree, call, hbench, hexpression, htree, hcall, hvariadic, harity, harguments⟩ :=
    replacement_built
  refine ⟨bench, expression, tree, call, hbench, hexpression, htree, hcall, hvariadic, ?_⟩
  rw [harity, harguments]
  decide

/-- The call in question has the one argument that the first `f` took. -/
theorem replacement_takes_argument : ∃ (bench : Bench) (expression : Expression) (tree : Tree) (call : TreeCall),
    performAll ⟨⟨{}, .empty, .empty⟩, []⟩ replacement = .ok bench ∧
      bench.expressions[0]? = some expression ∧ expression.tree = some tree ∧
      call ∈ tree.root.calls ∧ bench.workspace.registry.function? call.label = some call.function ∧
      ∃ before registration after earlier rpn, replacement = before ++ .register registration :: after ∧
        performAll ⟨⟨{}, .empty, .empty⟩, []⟩ before = .ok earlier ∧ expression.rpn = some rpn ∧
        earlier.Replaces 0 rpn registration call.label ∧
        earlier.workspace.registry.Accepts call.label call.arguments := by
  obtain ⟨bench, expression, tree, call, hbench, hexpression, htree, hcall, hvariadic, harity, harguments⟩ :=
    replacement_built
  obtain ⟨hfunction, hnever | hsame | hreplaced⟩ :=
    calls_take_arguments hbench hexpression htree hcall
  · rw [hvariadic] at hnever
    cases hnever
  · rw [harity, harguments] at hsame
    cases hsame
  · exact ⟨bench, expression, tree, call, hbench, hexpression, htree, hcall, hfunction, hreplaced⟩

end Bench

end Formula
