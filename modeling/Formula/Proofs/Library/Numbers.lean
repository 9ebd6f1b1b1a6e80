import Formula.Library.Standard
import Formula.Proofs.Decimal.Fit
import Formula.Proofs.Environment.Numbers
import Formula.Proofs.Library.Confined

/-! # The numbers that the standard library gives

Every behaviour of the standard library gives numbers that fit the context, or hands on numbers it was
given, with two exceptions: some functions count items or rounds, and no context rounds their counts;
and two take a number to a whole one beside it.
-/
namespace Formula

namespace Plan

variable {fine : Value → Prop}

theorem gives_attempt {α : Type} {result : Except Failure α} {next : α → Plan}
    (h : ∀ a, result = .ok a → (next a).Gives fine) : (Plan.attempt result next).Gives fine := by
  cases result with
  | ok a => exact h a rfl
  | error failure => trivial

theorem gives_ite {condition : Prop} [Decidable condition] {plan other : Plan}
    (h : plan.Gives fine) (k : other.Gives fine) : (if condition then plan else other).Gives fine := by
  split
  · exact h
  · exact k

theorem gives_number (place : String) {value : Value} {next : Decimal → Plan}
    (h : ∀ amount unit binding, value = .number amount unit binding → (next amount).Gives fine) :
    (Plan.number place value next).Gives fine := by
  cases value with
  | number amount unit binding => exact h amount unit binding rfl
  | _ => exact fun _ => trivial

theorem gives_numbers (place : String) (values : List Value) {next : List Decimal → Plan}
    (h : ∀ numbers, (next numbers).Gives fine) : (Plan.numbers place values next).Gives fine := by
  induction values generalizing next with
  | nil => exact h []
  | cons value values ih => exact gives_number place fun first _ _ _ => ih fun rest => h (first :: rest)

theorem gives_items (place : String) {value : Value} {next : List Value → Plan}
    (h : ∀ items binding, value = .list items binding → (next items).Gives fine) :
    (Plan.items place value next).Gives fine := by
  cases value with
  | list items binding => exact h items binding rfl
  | _ => exact fun _ => trivial

end Plan

namespace Library

open Context Plan

section Rounded

variable {c : Context} (hprecision : 0 < c.precision)

include hprecision

theorem rounded_roundedFloat (x : Float) : c.Rounded (roundedFloat c x) := by
  unfold roundedFloat
  split
  next => exact .error _
  next number _ => exact (rounded_round hprecision number).mapError _

/-- A power is rounded last, however it was put together. -/
theorem rounded_powerOf (base exponent : Decimal) : c.Rounded (power c base exponent) := by
  unfold power
  refine .bind fun size => .bind fun fraction => .bind fun rest => ?_
  dsimp only
  have hone : c.Rounded (pure Decimal.one : Except Failure Decimal) :=
    .ok (fits_digit hprecision (by decide))
  have hwhole (n : Nat) : c.Rounded (signalled (c.power base n)) :=
    (rounded_power hprecision base n).mapError _
  refine .ite (hone.andThen ?fraction) ((hwhole _).andThen ?fraction)
  intro result hresult
  have hproduct (root : Decimal) : c.Rounded (signalled (c.multiply result root)) :=
    (rounded_multiply hprecision result root).mapError _
  refine .ite (Rounded.andThen (.ok hresult) ?sign)
    (.bind fun root => .bind fun _ => (hproduct _).andThen ?sign)
  intro result hresult
  exact .ite ((rounded_divide hprecision .one result).mapError _) (.ok hresult)

end Rounded

section Arguments

variable {settings : Settings} {fine : Value → Prop}

theorem gives_unary {plan : Settings → Value → Plan}
    (h : ∀ ⦃value⦄, fine value → (plan settings value).Gives fine) :
    (Behaviour.eager (unary plan)).Gives settings fine := by
  intro values hvalues
  unfold unary
  split
  next value => exact h (hvalues value List.mem_cons_self)
  next => trivial

theorem gives_binary {plan : Settings → Value → Value → Plan}
    (h : ∀ ⦃a b⦄, fine a → fine b → (plan settings a b).Gives fine) :
    (Behaviour.eager (binary plan)).Gives settings fine := by
  intro values hvalues
  unfold binary
  split
  next a b => exact h (hvalues a (by simp)) (hvalues b (by simp))
  next => trivial

theorem gives_deferred {count : Nat} {plan : Settings → Plan} (h : (plan settings).Gives fine) :
    (Behaviour.lazy (deferred count plan)).Gives settings fine :=
  fun _ => gives_ite h trivial

end Arguments

section Numbers

variable {settings : Settings} {good : Decimal → Prop}
  (hprecision : 0 < settings.context.precision) (hfits : ∀ d, settings.context.Fits d → good d)

theorem gives_numeric {result : Except Signal Decimal} (h : ∀ d, result = .ok d → good d) :
    (numeric result).Gives (Value.Numbers good) := by
  cases result with
  | ok number => exact h number rfl
  | error signal => trivial

theorem gives_onNumber (place : String) {operation : Context → Decimal → Except Signal Decimal}
    (h : ∀ number, good number → ∀ d, operation settings.context number = .ok d → good d) :
    (Behaviour.eager (onNumber place operation)).Gives settings (Value.Numbers good) :=
  gives_unary fun _ hvalue => gives_number place fun number unit binding hnumber => by
    subst hnumber
    exact gives_numeric (h number hvalue)

theorem gives_floor (hwhole : ∀ d, good d → good d.floor) :
    (Behaviour.eager floorPlan).Gives settings (Value.Numbers good) :=
  gives_onNumber "floor" fun number hnumber d hd => by
    obtain rfl := Except.ok.inj hd
    exact hwhole number hnumber

theorem gives_ceiling (hwhole : ∀ d, good d → good d.ceiling) :
    (Behaviour.eager ceilingPlan).Gives settings (Value.Numbers good) :=
  gives_onNumber "ceil" fun number hnumber d hd => by
    obtain rfl := Except.ok.inj hd
    exact hwhole number hnumber

section Fitting

include hfits

theorem gives_onNumber_rounded (place : String) {operation : Context → Decimal → Except Signal Decimal}
    (h : ∀ number, settings.context.Rounded (operation settings.context number)) :
    (Behaviour.eager (onNumber place operation)).Gives settings (Value.Numbers good) :=
  gives_onNumber place fun number _ d hd => hfits d (h number d hd)

theorem gives_onNumbers (place : String)
    {operation : Context → Decimal → Decimal → Except Signal Decimal}
    (h : ∀ a b, settings.context.Rounded (operation settings.context a b)) :
    (Behaviour.eager (onNumbers place operation)).Gives settings (Value.Numbers good) :=
  gives_binary fun _ _ _ _ => gives_number place fun a _ _ _ => gives_number place fun b _ _ _ =>
    gives_numeric fun d hd => hfits d (h a b d hd)

include hprecision

theorem good_digit {n : Nat} (h : n < 10) : good (.ofNat n) := hfits _ (fits_digit hprecision h)

theorem numbers_ofBool (flag : Bool) : (Value.ofBool flag).Numbers good := by
  cases flag
  · exact good_digit hprecision hfits (by decide)
  · exact good_digit hprecision hfits (by decide)

theorem gives_power : (Behaviour.eager powerPlan).Gives settings (Value.Numbers good) :=
  gives_binary fun _ _ _ _ => gives_number "^" fun base _ _ _ => gives_number "^" fun exponent _ _ _ =>
    gives_attempt fun result hresult => hfits result (rounded_powerOf hprecision base exponent _ hresult)

theorem gives_factorial : (Behaviour.eager factorialPlan).Gives settings (Value.Numbers good) :=
  gives_unary fun _ _ => gives_number "fact" fun _ _ _ _ => gives_ite trivial <|
    gives_numeric fun d hd => hfits d (rounded_round hprecision _ d hd)

theorem gives_round : (Behaviour.eager roundPlan).Gives settings (Value.Numbers good) :=
  gives_binary fun _ _ _ _ => gives_number "round" fun _ _ _ _ => gives_attempt fun unit _ =>
    gives_number "round" fun number _ _ _ =>
      gives_numeric fun d hd => hfits d (rounded_quantize hprecision number unit.exponent d hd)

theorem gives_lifted (name : String) (f : FloatFunction) :
    (Behaviour.eager (lifted name f)).Gives settings (Value.Numbers good) := by
  intro values _
  refine gives_numbers name values fun numbers => ?_
  cases f (numbers.map Binary64.ofDecimal) with
  | none => trivial
  | some result =>
    cases result with
    | error fault => trivial
    | ok x =>
      exact gives_attempt fun number hnumber =>
        hfits number (rounded_roundedFloat hprecision x number hnumber)

/-- What is handed on is a number that was given. -/
theorem gives_rectify : (Behaviour.eager rectifyPlan).Gives settings (Value.Numbers good) :=
  gives_unary fun value hvalue => gives_number "relu" fun number _ _ _ => by
    change Value.Numbers good (if number.isBelowZero then .zero else value)
    split
    · exact good_digit hprecision hfits (by decide)
    · exact hvalue

theorem gives_comparison (accepts : Ordering → Bool) :
    (Behaviour.eager (comparison accepts)).Gives settings (Value.Numbers good) :=
  gives_binary fun _ _ _ _ => numbers_ofBool hprecision hfits _

theorem gives_inequality : (Behaviour.eager inequality).Gives settings (Value.Numbers good) :=
  gives_binary fun _ _ _ _ => numbers_ofBool hprecision hfits _

theorem gives_negation : (Behaviour.eager negation).Gives settings (Value.Numbers good) :=
  gives_unary fun _ _ => numbers_ofBool hprecision hfits _

theorem gives_conjunction : (Behaviour.lazy conjunction).Gives settings (Value.Numbers good) :=
  gives_deferred fun _ _ => gives_ite (fun _ _ => numbers_ofBool hprecision hfits _)
    (numbers_ofBool hprecision hfits _)

theorem gives_disjunction : (Behaviour.lazy disjunction).Gives settings (Value.Numbers good) :=
  gives_deferred fun _ _ => gives_ite (numbers_ofBool hprecision hfits _)
    fun _ _ => numbers_ofBool hprecision hfits _

end Fitting

theorem gives_positive : (Behaviour.eager positivePlan).Gives settings (Value.Numbers good) :=
  gives_unary fun _ hvalue => gives_number "+" fun _ _ _ _ => hvalue

theorem gives_assignment : (Behaviour.eager assignment).Gives settings (Value.Numbers good) :=
  gives_binary fun target value _ hvalue => by
    cases target.binding with
    | none => trivial
    | some name => exact ⟨hvalue, hvalue.boundTo name⟩

theorem gives_swap : (Behaviour.eager swap).Gives settings (Value.Numbers good) :=
  gives_binary fun left right hleft hright => by
    cases left.binding with
    | none => trivial
    | some a =>
      cases right.binding with
      | none => trivial
      | some b => exact ⟨hright, hleft, hright.boundTo a⟩

theorem gives_maximum : (Behaviour.eager maximum).Gives settings (Value.Numbers good) := by
  intro values hvalues
  cases values with
  | nil => trivial
  | cons value values => exact hvalues _ (Value.greatest_mem value values)

theorem gives_minimum : (Behaviour.eager minimum).Gives settings (Value.Numbers good) := by
  intro values hvalues
  cases values with
  | nil => trivial
  | cons value values => exact hvalues _ (Value.least_mem value values)

theorem gives_listOf : (Behaviour.eager listOf).Gives settings (Value.Numbers good) :=
  fun _ hvalues => Value.numbers_list.mpr hvalues

theorem gives_print : (Behaviour.eager print).Gives settings (Value.Numbers good) :=
  gives_unary fun _ hvalue _ => hvalue

theorem gives_sequence : (Behaviour.lazy sequence).Gives settings (Value.Numbers good) :=
  gives_deferred fun _ _ _ _ hvalue => hvalue

theorem gives_choice : (Behaviour.lazy choice).Gives settings (Value.Numbers good) :=
  gives_deferred fun _ _ => gives_ite trivial trivial

theorem gives_mapOver {results items : List Value} (hresults : ∀ value ∈ results, value.Numbers good)
    (hitems : ∀ item ∈ items, item.Numbers good) : (mapOver results items).Gives (Value.Numbers good) := by
  induction items generalizing results with
  | nil => exact Value.numbers_list.mpr fun value hvalue => hresults value (List.mem_reverse.mp hvalue)
  | cons item items ih =>
    obtain ⟨hitem, hitems⟩ := List.forall_mem_cons.mp hitems
    exact ⟨hitem, fun value hvalue => ih (List.forall_mem_cons.mpr ⟨hvalue, hresults⟩) hitems⟩

theorem gives_map : (Behaviour.lazy mapPlan).Gives settings (Value.Numbers good) :=
  gives_deferred fun _ hvalue => gives_items "map" fun items binding hitems => by
    subst hitems
    exact ⟨gives_mapOver (List.forall_mem_nil _) (Value.numbers_list.mp hvalue), fun _ hlist => hlist⟩

theorem gives_reduceOver {gathered : Value} {items : List Value} (hgathered : gathered.Numbers good)
    (hitems : ∀ item ∈ items, item.Numbers good) :
    (reduceOver gathered items).Gives (Value.Numbers good) := by
  induction items generalizing gathered with
  | nil => exact hgathered
  | cons item items ih =>
    obtain ⟨hitem, hitems⟩ := List.forall_mem_cons.mp hitems
    exact ⟨hgathered, hitem, fun value hvalue => ih hvalue hitems⟩

theorem gives_reduce : (Behaviour.lazy reduce).Gives settings (Value.Numbers good) :=
  gives_deferred fun _ hinitial _ hvalue => gives_items "reduce" fun items binding hitems => by
    subst hitems
    exact gives_ite hinitial ⟨gives_reduceOver hinitial (Value.numbers_list.mp hvalue), fun _ hlast => hlast⟩

theorem gives_caseFrom (index pairs : Nat) : (caseFrom index pairs).Gives (Value.Numbers good) := by
  induction pairs generalizing index with
  | zero => trivial
  | succ pairs ih => exact fun _ _ => gives_ite trivial (ih (index + 2))

theorem gives_case : (Behaviour.lazy caseOf).Gives settings (Value.Numbers good) :=
  fun _ => gives_ite trivial (gives_caseFrom _ _)

def countingNames : List String := ["len", "loop", "while", "for"]

def wholeNames : List String := ["floor", "ceil"]

include hprecision hfits

theorem gives_operators : ∀ op ∈ operators, op.behaviour.Gives settings (Value.Numbers good) := by
  have hcomparison := @gives_comparison settings good hprecision hfits
  have honNumbers := @gives_onNumbers settings good hfits
  simp only [operators, lazyOperator, binaryOperator, unaryOperator, List.forall_mem_cons]
  exact ⟨gives_sequence, gives_assignment, gives_disjunction hprecision hfits,
    gives_conjunction hprecision hfits, hcomparison _, gives_inequality hprecision hfits, gives_swap,
    hcomparison _, hcomparison _, hcomparison _, hcomparison _,
    honNumbers "+" (rounded_add hprecision), honNumbers "-" (rounded_subtract hprecision),
    honNumbers "*" (rounded_multiply hprecision), honNumbers "/" (rounded_divide hprecision),
    honNumbers "%" (rounded_remainder hprecision), gives_power hprecision hfits,
    gives_onNumber_rounded hfits "-" (rounded_minus hprecision), gives_positive, List.forall_mem_nil _⟩

/-- Except for those that count, functions give good numbers for good ones, provided that those that take
numbers to whole ones do. -/
theorem gives_functions : ∀ f ∈ functions, f.name ∉ countingNames →
    (f.name ∈ wholeNames → ∀ d, good d → good d.floor ∧ good d.ceiling) →
      f.behaviour.Gives settings (Value.Numbers good) := by
  have hcounts {name : String} {plan : Behaviour} (h : name ∈ countingNames) : name ∉ countingNames →
      (name ∈ wholeNames → ∀ d, good d → good d.floor ∧ good d.ceiling) →
        plan.Gives settings (Value.Numbers good) := fun hnone => absurd h hnone
  have hdraw : (Behaviour.eager drawPlan).Gives settings (Value.Numbers good) :=
    gives_lifted hprecision hfits "rand" _
  simp only [functions, List.forall_mem_append, List.forall_mem_cons, List.forall_mem_map, eagerFunction,
    lazyFunction]
  refine ⟨⟨fun _ _ => gives_negation hprecision hfits, fun _ _ => gives_factorial hprecision hfits,
    fun _ _ => gives_onNumber_rounded hfits "abs" (rounded_abs hprecision),
    fun _ _ => gives_round hprecision hfits,
    fun _ hwhole => gives_floor fun d hd => (hwhole (by simp [wholeNames]) d hd).1,
    fun _ hwhole => gives_ceiling fun d hd => (hwhole (by simp [wholeNames]) d hd).2,
    fun _ _ => gives_rectify hprecision hfits, fun _ _ => gives_maximum, fun _ _ => gives_minimum,
    fun _ _ => gives_listOf, hcounts (by simp [countingNames]), fun _ _ => gives_print,
    fun _ _ => gives_choice, hcounts (by simp [countingNames]), fun _ _ => gives_map,
    hcounts (by simp [countingNames]), hcounts (by simp [countingNames]), fun _ _ => gives_reduce,
    fun _ _ => gives_case, fun _ _ => hdraw, List.forall_mem_nil _⟩, ?_⟩
  intro entry _ _ _
  exact gives_lifted hprecision hfits _ _

end Numbers

end Library

end Formula
