import Formula.Library.Standard
import Formula.Proofs.Evaluation.ConfinedTree

/-! # The standard library is confined

Given as many operands as they take, the operators and functions of the standard library read and write
no names but those that the values before them are bound to, put back the names that repetitions bind,
and fail with what the node around them can locate.
-/
namespace Formula

namespace Plan

variable {names held : List String} {operands : Nat} {reports : Failure → Prop}

theorem confined_attempt {α : Type} {good : α → Prop} {result : Except Failure α} {next : α → Plan}
    (hresult : Yields good reports result)
    (hnext : ∀ a, good a → (next a).Confined names operands reports held) :
    (Plan.attempt result next).Confined names operands reports held := by
  cases hresult with
  | ok h => exact hnext _ h
  | error h => exact h

theorem confined_ite {condition : Prop} [Decidable condition] {plan other : Plan}
    (h : plan.Confined names operands reports held) (k : other.Confined names operands reports held) :
    (if condition then plan else other).Confined names operands reports held := by
  split
  · exact h
  · exact k

theorem confined_done {value : Value} (h : value.binding = none) :
    (Plan.done value).Confined names operands reports held :=
  Value.within_of_binding_eq_none h

section Refusals

variable (hreports : ∀ cause, reports (.of cause))

include hreports

theorem confined_number (place : String) (value : Value) {next : Decimal → Plan}
    (hnext : ∀ number, (next number).Confined names operands reports held) :
    (Plan.number place value next).Confined names operands reports held := by
  cases value with
  | number => exact hnext _
  | _ => exact hreports _

theorem confined_numbers (place : String) (values : List Value) {next : List Decimal → Plan}
    (hnext : ∀ numbers, numbers.length = values.length →
      (next numbers).Confined names operands reports held) :
    (Plan.numbers place values next).Confined names operands reports held := by
  induction values generalizing next with
  | nil => exact hnext [] rfl
  | cons value values ih =>
    refine confined_number hreports place value fun first => ih fun rest hrest => hnext _ ?_
    rw [List.length_cons, List.length_cons, hrest]

theorem confined_items (place : String) (value : Value) {next : List Value → Plan}
    (hnext : ∀ items, (next items).Confined names operands reports held) :
    (Plan.items place value next).Confined names operands reports held := by
  cases value with
  | list => exact hnext _
  | _ => exact hreports _

end Refusals

end Plan

namespace Value

theorem greatest_mem (best : Value) (values : List Value) : greatest best values ∈ best :: values := by
  induction values generalizing best with
  | nil => exact List.mem_cons_self
  | cons value values ih =>
    unfold greatest
    split
    · exact List.mem_cons_of_mem _ (ih value)
    · have hmem := ih best
      grind

theorem least_mem (best : Value) (values : List Value) : least best values ∈ best :: values := by
  induction values generalizing best with
  | nil => exact List.mem_cons_self
  | cons value values ih =>
    unfold least
    split
    · exact List.mem_cons_of_mem _ (ih value)
    · have hmem := ih best
      grind

end Value

namespace Library

open Failure Plan

variable {names held : List String} {operands : Nat}

section Arguments

theorem confined_unary {plan : Settings → Value → Plan}
    (h : ∀ ⦃names settings value⦄, value.Within names →
      (plan settings value).Confined names 0 Reported []) :
    (Behaviour.eager (unary plan)).Confined 1 := by
  intro names settings values hlength hvalues
  obtain ⟨value, rfl⟩ := List.length_eq_one_iff.mp hlength
  exact h (hvalues value List.mem_cons_self)

theorem confined_binary {plan : Settings → Value → Value → Plan}
    (h : ∀ ⦃names settings a b⦄, a.Within names → b.Within names →
      (plan settings a b).Confined names 0 Reported []) :
    (Behaviour.eager (binary plan)).Confined 2 := by
  intro names settings values hlength hvalues
  obtain ⟨a, b, rfl⟩ := List.length_eq_two.mp hlength
  exact h (hvalues a (by simp)) (hvalues b (by simp))

theorem confined_deferred {count : Nat} {plan : Settings → Plan}
    (h : ∀ ⦃names settings⦄, (plan settings).Confined names count Unlocated []) :
    (Behaviour.lazy (deferred count plan)).Confined count := by
  intro names settings
  rw [deferred, if_pos rfl]
  exact @h names settings

theorem confined_numeric (result : Except Signal Decimal) :
    (numeric result).Confined names operands Reported held := by
  cases result with
  | ok number => exact confined_done rfl
  | error signal => exact reported_numeric signal

theorem confined_onNumber (place : String) (operation : Context → Decimal → Except Signal Decimal) :
    (Behaviour.eager (onNumber place operation)).Confined 1 :=
  confined_unary fun _ _ value _ =>
    confined_number reported_of place value fun _ => confined_numeric _

theorem confined_onNumbers (place : String)
    (operation : Context → Decimal → Decimal → Except Signal Decimal) :
    (Behaviour.eager (onNumbers place operation)).Confined 2 :=
  confined_binary fun _ _ a b _ _ =>
    confined_number reported_of place a fun _ =>
      confined_number reported_of place b fun _ => confined_numeric _

theorem failsWith_roundedFloat (context : Context) (x : Float) :
    FailsWith Reported (roundedFloat context x) := by
  unfold roundedFloat
  split
  next => exact .error (reported_of _)
  next number _ => exact .mapError reported_numeric _

theorem confined_lifted (name : String) {f : FloatFunction} {count : Nat}
    (hf : ∀ xs : List Float, xs.length = count → (f xs).isSome = true) :
    (Behaviour.eager (lifted name f)).Confined count := by
  intro names settings values hlength _
  refine confined_numbers reported_of name values fun numbers hnumbers => ?_
  have hcount : (numbers.map Binary64.ofDecimal).length = count := by
    rw [List.length_map, hnumbers, hlength]
  obtain ⟨result, hresult⟩ := Option.isSome_iff_exists.mp (hf _ hcount)
  rw [hresult]
  cases result with
  | error fault => exact reported_floating fault
  | ok x =>
    exact confined_attempt (failsWith_roundedFloat settings.context x) fun _ _ => confined_done rfl

theorem confined_one (name : String) (f : Float → Binary64.Result) :
    (Behaviour.eager (lifted name (.one f))).Confined 1 := by
  refine confined_lifted name fun xs hlength => ?_
  obtain ⟨x, rfl⟩ := List.length_eq_one_iff.mp hlength
  rfl

theorem confined_draw : (Behaviour.eager drawPlan).Confined 1 :=
  fun names settings values => @confined_one "rand" _ names settings values

end Arguments

section Arithmetic

theorem failsWith_signalled {α : Type} (result : Except Signal α) :
    FailsWith Reported (signalled result) := .mapError reported_numeric result

theorem failsWith_power (context : Context) (base exponent : Decimal) :
    FailsWith Reported (power context base exponent) := by
  unfold power
  refine (failsWith_signalled _).bind fun size _ => ?_
  refine (failsWith_signalled _).bind fun fraction _ => ?_
  refine (failsWith_signalled _).bind fun rest _ => ?_
  -- Both ways to the whole power go on alike, and so do both ways past the fraction.
  dsimp only
  have hpure (number : Decimal) : FailsWith Reported (pure number) := .ok trivial
  refine .ite ((hpure _).bind ?fraction) ((failsWith_signalled _).bind ?fraction)
  intro whole _
  refine .ite ((hpure _).bind ?sign) ((Yields.mapError reported_floating _).bind fun root _ =>
    (failsWith_roundedFloat context root).bind fun _ _ => (failsWith_signalled _).bind ?sign)
  intro result _
  exact .ite (failsWith_signalled _) (hpure _)

theorem confined_power : (Behaviour.eager powerPlan).Confined 2 :=
  confined_binary fun _ settings a b _ _ =>
    confined_number reported_of "^" a fun base =>
      confined_number reported_of "^" b fun exponent =>
        confined_attempt (failsWith_power settings.context base exponent) fun _ _ => confined_done rfl

theorem confined_factorial : (Behaviour.eager factorialPlan).Confined 1 :=
  confined_unary fun _ _ value _ =>
    confined_number reported_of "fact" value fun _ =>
      confined_ite (reported_tooLarge _) (confined_numeric _)

theorem confined_round : (Behaviour.eager roundPlan).Confined 2 :=
  confined_binary fun _ _ value places _ _ =>
    confined_number reported_of "round" places fun _ =>
      confined_attempt (failsWith_signalled _) fun _ _ =>
        confined_number reported_of "round" value fun _ => confined_numeric _

theorem confined_rectify : (Behaviour.eager rectifyPlan).Confined 1 :=
  confined_unary fun _ _ value hvalue =>
    confined_number reported_of "relu" value fun number => by
      change Value.Within _ (if number.isBelowZero then .zero else value)
      split
      · exact Value.within_of_binding_eq_none rfl
      · exact hvalue

theorem confined_positive : (Behaviour.eager positivePlan).Confined 1 :=
  confined_unary fun _ _ value hvalue =>
    confined_number reported_of "+" value fun _ => hvalue

end Arithmetic

section Assignment

/-- Assignments write to names that their operands are bound to. -/
theorem confined_assignment : (Behaviour.eager assignment).Confined 2 :=
  confined_binary fun names _ target value htarget _ => by
    cases hbinding : target.binding with
    | none =>
      exact reported_of _
    | some name =>
      have hname := htarget name hbinding
      exact ⟨hname, Value.within_boundTo hname value⟩

theorem confined_swap : (Behaviour.eager swap).Confined 2 :=
  confined_binary fun names _ left right hleft hright => by
    cases hfirst : left.binding with
    | none =>
      exact reported_of _
    | some a =>
      cases hsecond : right.binding with
      | none =>
        exact reported_of _
      | some b =>
        have ha := hleft a hfirst
        exact ⟨ha, hright b hsecond, Value.within_boundTo ha right⟩

end Assignment

section Collection

theorem confined_maximum (count : Nat) : (Behaviour.eager maximum).Confined count := by
  intro names settings values _ hvalues
  cases values with
  | nil => exact reported_of _
  | cons value values => exact hvalues _ (Value.greatest_mem value values)

theorem confined_minimum (count : Nat) : (Behaviour.eager minimum).Confined count := by
  intro names settings values _ hvalues
  cases values with
  | nil => exact reported_of _
  | cons value values => exact hvalues _ (Value.least_mem value values)

theorem confined_listOf (count : Nat) : (Behaviour.eager listOf).Confined count :=
  fun _ _ _ _ _ => confined_done rfl

theorem confined_length : (Behaviour.eager length).Confined 1 :=
  confined_unary fun _ _ value _ => by
    cases value with
    | list | text | null => exact confined_done rfl
    | number | host => exact reported_of _

theorem confined_print : (Behaviour.eager print).Confined 1 :=
  confined_unary fun _ _ _ hvalue => hvalue

end Collection

section Logic

theorem confined_comparison (accepts : Ordering → Bool) :
    (Behaviour.eager (comparison accepts)).Confined 2 :=
  confined_binary fun _ _ _ _ _ _ => confined_done rfl

theorem confined_inequality : (Behaviour.eager inequality).Confined 2 :=
  confined_binary fun _ _ _ _ _ _ => confined_done rfl

theorem confined_negation : (Behaviour.eager negation).Confined 1 :=
  confined_unary fun _ _ _ _ => confined_done rfl

theorem confined_conjunction : (Behaviour.lazy conjunction).Confined 2 :=
  confined_deferred fun _ _ =>
    ⟨Nat.zero_lt_two, fun _ _ =>
      confined_ite ⟨Nat.one_lt_two, fun _ _ => confined_done rfl⟩ (confined_done rfl)⟩

theorem confined_disjunction : (Behaviour.lazy disjunction).Confined 2 :=
  confined_deferred fun _ _ =>
    ⟨Nat.zero_lt_two, fun _ _ =>
      confined_ite (confined_done rfl) ⟨Nat.one_lt_two, fun _ _ => confined_done rfl⟩⟩

end Logic

section Control

theorem confined_sequence : (Behaviour.lazy sequence).Confined 2 :=
  confined_deferred fun _ _ =>
    ⟨Nat.zero_lt_two, fun _ _ => ⟨Nat.one_lt_two, fun _ hvalue => hvalue⟩⟩

theorem confined_choice : (Behaviour.lazy choice).Confined 3 := by
  refine confined_deferred fun names settings => ⟨by decide, fun value _ => confined_ite ?_ ?_⟩
  · exact Nat.lt_of_sub_eq_succ rfl
  · exact Nat.lt_of_sub_eq_succ rfl

variable {reports : Failure → Prop}

theorem confined_loopFrom (hoperands : 0 < operands) (hitem : itemName ∈ held ++ names) (round : Nat)
    {last : Value} (hlast : last.Within names) (rounds : Nat) :
    (loopFrom round last rounds).Confined names operands reports held := by
  induction rounds generalizing round last with
  | zero => exact hlast
  | succ rounds ih => exact ⟨hitem, hoperands, fun value hvalue => ih (round + 1) hvalue⟩

theorem confined_mapOver (hoperands : 0 < operands) (hitem : itemName ∈ held ++ names)
    (results items : List Value) : (mapOver results items).Confined names operands reports held := by
  induction items generalizing results with
  | nil => exact confined_done rfl
  | cons item items ih => exact ⟨hitem, hoperands, fun value _ => ih (value :: results)⟩

theorem confined_countOver (hoperands : 0 < operands) (hitem : itemName ∈ held ++ names) (count : Nat)
    (items : List Value) : (countOver count items).Confined names operands reports held := by
  induction items generalizing count with
  | nil => exact confined_done rfl
  | cons item items ih => exact ⟨hitem, hoperands, fun _ _ => ih _⟩

theorem confined_whileFrom (hoperands : 2 < operands) (hitem : itemName ∈ held ++ names) (round : Nat)
    {last : Value} (hlast : last.Within names) (bound : Nat) :
    (whileFrom round last bound).Confined names operands reports held := by
  induction bound generalizing round last with
  | zero => exact hlast
  | succ bound ih =>
    refine ⟨by omega, fun condition _ => confined_ite ?_ hlast⟩
    exact ⟨hoperands, fun value hvalue => ⟨hitem, ih (round + 1) hvalue⟩⟩

theorem confined_reduceOver (hoperands : 0 < operands) (hitem : itemName ∈ held ++ names)
    (hgathered : gatheredName ∈ held ++ names) {gathered : Value} (hvalue : gathered.Within names)
    (items : List Value) : (reduceOver gathered items).Confined names operands reports held := by
  induction items generalizing gathered with
  | nil => exact hvalue
  | cons item items ih => exact ⟨hgathered, hitem, hoperands, fun value hvalue => ih hvalue⟩

theorem confined_caseFrom {index pairs : Nat} (h : index + 2 * pairs < operands) :
    (caseFrom index pairs).Confined names operands reports held := by
  induction pairs generalizing index with
  | zero => exact h
  | succ pairs ih =>
    refine ⟨by omega, fun condition _ => confined_ite ?_ (ih (by omega))⟩
    change index + 1 < operands
    omega

theorem confined_loop : (Behaviour.lazy loop).Confined 2 :=
  confined_deferred fun _ _ =>
    ⟨Nat.one_lt_two, fun count _ => confined_number unlocated_of "loop" count fun _ =>
      ⟨confined_loopFrom Nat.zero_lt_two List.mem_cons_self 0
        (Value.within_of_binding_eq_none rfl) _, fun _ hvalue => hvalue⟩⟩

theorem confined_map : (Behaviour.lazy mapPlan).Confined 2 :=
  confined_deferred fun _ _ =>
    ⟨Nat.one_lt_two, fun items _ => confined_items unlocated_of "map" items fun _ =>
      ⟨confined_mapOver Nat.zero_lt_two List.mem_cons_self _ _, fun _ hvalue => hvalue⟩⟩

theorem confined_for : (Behaviour.lazy forPlan).Confined 2 :=
  confined_deferred fun _ _ =>
    ⟨Nat.one_lt_two, fun items _ => confined_items unlocated_of "for" items fun _ =>
      ⟨confined_countOver Nat.zero_lt_two List.mem_cons_self _ _, fun _ hvalue => hvalue⟩⟩

theorem confined_while : (Behaviour.lazy whilePlan).Confined 3 := by
  refine confined_deferred fun names settings => ⟨by decide, fun bound _ => ?_⟩
  refine confined_number unlocated_of "while" bound fun _ => ⟨⟨List.mem_cons_self, ?_⟩, ?_⟩
  · exact confined_whileFrom (by decide) List.mem_cons_self 0 (Value.within_of_binding_eq_none rfl) _
  · exact fun _ hvalue => hvalue

theorem confined_reduce : (Behaviour.lazy reduce).Confined 3 := by
  refine confined_deferred fun names settings => ⟨by decide, fun initial hinitial => ⟨by decide, ?_⟩⟩
  refine fun items _ => confined_items unlocated_of "reduce" items fun _ =>
    confined_ite hinitial ⟨?_, fun _ hvalue => hvalue⟩
  exact confined_reduceOver (by decide) (List.mem_cons_of_mem _ List.mem_cons_self)
    List.mem_cons_self hinitial _

theorem confined_case (count : Nat) : (Behaviour.lazy caseOf).Confined count := by
  intro names settings
  unfold caseOf
  split
  next => exact unlocated_of _
  next hcount => exact confined_caseFrom (by omega)

end Control

theorem confined_operators : ∀ op ∈ operators, op.behaviour.Confined (if op.unary then 1 else 2) := by
  simp only [operators, lazyOperator, binaryOperator, unaryOperator, List.forall_mem_cons, if_true,
    Bool.false_eq_true, if_false, true_and, confined_sequence, confined_assignment, confined_disjunction,
    confined_conjunction, confined_comparison, confined_inequality, confined_swap, confined_onNumbers,
    confined_power, confined_onNumber, confined_positive]
  exact List.forall_mem_nil _

theorem confined_fixed {f : Function} (arity : Nat) (harity : f.arity = arity)
    (h : f.behaviour.Confined arity) : f.Confined := by
  intro count hcount
  have hfixed : f.variadic = false := by
    rw [Function.variadic, Function.variadicArity, harity, beq_eq_false_iff_ne]
    omega
  have heq := hcount hfixed
  obtain rfl : count = arity := by omega
  exact h

theorem confined_floatFunctions {name : String} {arity : Int} {f : FloatFunction}
    (h : (name, arity, f) ∈ floatFunctions) : (eagerFunction name arity (lifted name f)).Confined := by
  simp only [floatFunctions, List.mem_cons, List.mem_map, Prod.mk.injEq] at h
  obtain ⟨-, rfl, rfl⟩ | ⟨_, -, -, rfl, rfl⟩ := h
  · refine confined_fixed 2 rfl (confined_lifted name fun xs hlength => ?_)
    obtain ⟨x, y, rfl⟩ := List.length_eq_two.mp hlength
    rfl
  · exact confined_fixed 1 rfl (confined_one name _)

theorem confined_functions : ∀ f ∈ functions, f.Confined := by
  simp only [functions, List.forall_mem_append, List.forall_mem_cons, List.forall_mem_map]
  refine ⟨⟨confined_fixed 1 rfl confined_negation, confined_fixed 1 rfl confined_factorial,
    confined_fixed 1 rfl (confined_onNumber _ _), confined_fixed 2 rfl confined_round,
    confined_fixed 1 rfl (confined_onNumber _ _), confined_fixed 1 rfl (confined_onNumber _ _),
    confined_fixed 1 rfl confined_rectify, fun count _ => confined_maximum count,
    fun count _ => confined_minimum count, fun count _ => confined_listOf count,
    confined_fixed 1 rfl confined_length, confined_fixed 1 rfl confined_print,
    confined_fixed 3 rfl confined_choice, confined_fixed 2 rfl confined_loop,
    confined_fixed 2 rfl confined_map, confined_fixed 2 rfl confined_for,
    confined_fixed 3 rfl confined_while, confined_fixed 3 rfl confined_reduce,
    fun count _ => confined_case count, confined_fixed 1 rfl confined_draw, List.forall_mem_nil _⟩, ?_⟩
  rintro ⟨name, arity, f⟩ hmem
  exact confined_floatFunctions hmem

end Library

/-- The closed registry of the standard library is confined. -/
theorem Registry.standard_confined : Registry.standard.freeze.Confined where
  operators _ op hop := Library.confined_operators op (mem_of_operator?_standard hop).2
  functions _ f hf := Library.confined_functions f (mem_of_function?_standard hf)
  product op hop := by
    obtain rfl := Option.some.inj hop
    rfl

end Formula
