import Formula.Text.Pattern
import Mathlib.Computability.Language

/-! # The texts that a pattern matches

A pattern describes a language: unions, products and repetitions of single characters. Matching by
derivatives accepts its texts and no others.
-/
namespace Formula.Text.Pattern

open scoped Computability

def language : Pattern → Language Char
  | nothing => 0
  | blank => 1
  | one p => {cs | ∃ c, cs = [c] ∧ p c = true}
  | both first second => first.language * second.language
  | either left right => left.language + right.language
  | many pattern => pattern.language∗

variable {c : Char} {cs : List Char} {pattern : Pattern}

@[simp] theorem language_nothing : language nothing = 0 := rfl

@[simp] theorem language_blank : language blank = 1 := rfl

@[simp] theorem mem_language_one {p : Char → Bool} :
    cs ∈ (one p).language ↔ ∃ c, cs = [c] ∧ p c = true := Iff.rfl

@[simp] theorem language_both (first second : Pattern) :
    (both first second).language = first.language * second.language := rfl

@[simp] theorem mem_language_either {left right : Pattern} :
    cs ∈ (either left right).language ↔ cs ∈ left.language ∨ cs ∈ right.language :=
  Language.mem_add _ _ _

@[simp] theorem language_many (pattern : Pattern) : (many pattern).language = pattern.language∗ := rfl

@[simp] theorem language_andThen (first second : Pattern) :
    (first.andThen second).language = first.language * second.language := by
  fun_cases andThen first second <;> simp

@[simp] theorem mem_language_orElse {left right : Pattern} :
    cs ∈ (left.orElse right).language ↔ cs ∈ left.language ∨ cs ∈ right.language := by
  fun_cases orElse left right <;> simp

theorem nil_mem_mul {left right : Language Char} :
    [] ∈ left * right ↔ [] ∈ left ∧ [] ∈ right := by
  rw [Language.mem_mul]
  constructor
  · rintro ⟨cs, hcs, ds, hds, happend⟩
    obtain ⟨rfl, rfl⟩ := List.append_eq_nil_iff.mp happend
    exact ⟨hcs, hds⟩
  · rintro ⟨hleft, hright⟩
    exact ⟨[], hleft, [], hright, rfl⟩

theorem isNullable_iff : pattern.isNullable = true ↔ [] ∈ pattern.language := by
  induction pattern with
  | nothing => simp [isNullable]
  | blank => simp [isNullable]
  | one p => simp [isNullable]
  | both first second hfirst hsecond => simp [isNullable, nil_mem_mul, hfirst, hsecond]
  | either left right hleft hright => simp [isNullable, hleft, hright]
  | many pattern _ => simp [isNullable, Language.nil_mem_kstar]

/-- The first character belongs to the first factor, unless this one matches the empty text. -/
theorem cons_mem_mul {left right : Language Char} :
    c :: cs ∈ left * right ↔
      (∃ front rest, c :: front ∈ left ∧ rest ∈ right ∧ front ++ rest = cs) ∨
        [] ∈ left ∧ c :: cs ∈ right := by
  rw [Language.mem_mul]
  constructor
  · rintro ⟨front, hfront, rest, hrest, happend⟩
    cases front with
    | nil => exact .inr ⟨hfront, by rwa [← happend]⟩
    | cons d front =>
      obtain ⟨rfl, htail⟩ := List.cons.inj happend
      exact .inl ⟨front, rest, hfront, hrest, htail⟩
  · rintro (⟨front, rest, hfront, hrest, rfl⟩ | ⟨hnil, hright⟩)
    · exact ⟨c :: front, hfront, rest, hrest, rfl⟩
    · exact ⟨[], hnil, c :: cs, hright, rfl⟩

theorem cons_mem_kstar {language : Language Char} :
    c :: cs ∈ language∗ ↔
      ∃ front rest, c :: front ∈ language ∧ rest ∈ language∗ ∧ front ++ rest = cs := by
  constructor
  · intro h
    obtain ⟨pieces, hpieces, hall⟩ := Language.mem_kstar_iff_exists_nonempty.mp h
    cases pieces with
    | nil => cases hpieces
    | cons piece pieces =>
      obtain ⟨⟨hpiece, hnonempty⟩, hmore⟩ := List.forall_mem_cons.mp hall
      obtain ⟨d, front, rfl⟩ := List.exists_cons_of_ne_nil hnonempty
      rw [List.flatten_cons, List.cons_append] at hpieces
      obtain ⟨rfl, hrest⟩ := List.cons.inj hpieces
      exact ⟨front, pieces.flatten, hpiece, Language.join_mem_kstar fun piece hmem =>
        (hmore piece hmem).1, hrest.symm⟩
  · rintro ⟨front, rest, hfront, hrest, rfl⟩
    rw [← Language.one_add_self_mul_kstar_eq_kstar, Language.mem_add, Language.mem_mul]
    exact .inr ⟨c :: front, hfront, rest, hrest, rfl⟩

theorem mem_derivative (c : Char) (pattern : Pattern) (cs : List Char) :
    cs ∈ (pattern.derivative c).language ↔ c :: cs ∈ pattern.language := by
  induction pattern generalizing cs with
  | nothing => simp [derivative]
  | blank => simp [derivative]
  | one p =>
    unfold derivative
    split
    next hc => simp [hc]
    next hc => simp [hc]
  | both first second hfirst hsecond =>
    have hproduct : cs ∈ (first.derivative c).language * second.language ↔
        ∃ front rest, c :: front ∈ first.language ∧ rest ∈ second.language ∧ front ++ rest = cs := by
      simp only [Language.mem_mul, hfirst, exists_and_left]
    unfold derivative
    rw [language_both, cons_mem_mul, ← isNullable_iff, ← hproduct]
    dsimp only
    split
    next hnull => simp [hsecond, hnull]
    next hnull => simp [hnull]
  | either left right hleft hright =>
    rw [derivative, mem_language_orElse, mem_language_either, hleft, hright]
  | many pattern ih =>
    rw [derivative, language_andThen, language_many, cons_mem_kstar, Language.mem_mul]
    simp only [ih, exists_and_left]

/-- Derivatives accept the texts that the pattern describes. -/
theorem accepts_iff : pattern.accepts cs = true ↔ cs ∈ pattern.language := by
  unfold accepts
  induction cs generalizing pattern with
  | nil => exact isNullable_iff
  | cons c cs ih => rw [List.foldl_cons, ih, mem_derivative]

@[simp] theorem mem_language_char : cs ∈ (char c).language ↔ cs = [c] := by
  simp [char]

@[simp] theorem mem_language_anyOf {set : String} :
    cs ∈ (anyOf set).language ↔ ∃ c ∈ set.toList, cs = [c] := by
  simp [anyOf, and_comm]

@[simp] theorem mem_language_optional : cs ∈ pattern.optional.language ↔ cs = [] ∨ cs ∈ pattern.language := by
  simp [optional]

theorem mem_language_many_one {p : Char → Bool} :
    cs ∈ (many (one p)).language ↔ ∀ c ∈ cs, p c = true := by
  rw [language_many]
  induction cs with
  | nil => simp [Language.nil_mem_kstar]
  | cons c cs ih =>
    rw [cons_mem_kstar, List.forall_mem_cons, ← ih]
    constructor
    · rintro ⟨front, rest, ⟨d, hd, hp⟩, hrest, rfl⟩
      obtain ⟨rfl, rfl⟩ := List.cons.inj hd
      exact ⟨hp, hrest⟩
    · rintro ⟨hp, hrest⟩
      exact ⟨[], cs, ⟨c, rfl, hp⟩, hrest, rfl⟩

theorem mem_language_some_one {p : Char → Bool} :
    cs ∈ (Pattern.some (one p)).language ↔ cs ≠ [] ∧ ∀ c ∈ cs, p c = true := by
  rw [Pattern.some, language_andThen]
  cases cs with
  | nil => simp [nil_mem_mul]
  | cons c cs =>
    rw [cons_mem_mul, List.forall_mem_cons, ← mem_language_many_one]
    simp [and_comm]

@[simp] theorem language_sequence_nil : (sequence []).language = 1 := rfl

@[simp] theorem language_sequence_cons (pattern : Pattern) (patterns : List Pattern) :
    (sequence (pattern :: patterns)).language = pattern.language * (sequence patterns).language :=
  language_andThen _ _

@[simp] theorem language_choice_nil : (choice []).language = 0 := rfl

@[simp] theorem mem_language_choice_cons {patterns : List Pattern} :
    cs ∈ (choice (pattern :: patterns)).language ↔
      cs ∈ pattern.language ∨ cs ∈ (choice patterns).language :=
  mem_language_orElse

end Formula.Text.Pattern
