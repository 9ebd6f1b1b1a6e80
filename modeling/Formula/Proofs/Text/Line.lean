import Formula.Text.Line
import Mathlib.Data.List.Basic

/-! # The line around a position

Two notions of a line meet where a position is shown. Lines that are shown end at any line break; lines are
counted, and columns begin, at line feeds only. The two give the same line and column exactly where every
break before the position is a line feed, alone or after a carriage return. Any other break is not counted,
so the line that is counted up to lies before the one of the position.
-/
namespace Formula.Text

def endsLine (c : Char) (rest : List Char) : Bool :=
  isLineBreak c && !(c == '\r' && rest.head? == some '\n')

def lineEnds : List Char → Nat
  | [] => 0
  | c :: rest => if endsLine c rest then lineEnds rest + 1 else lineEnds rest

/-- `line` is the line of `cs` that the character at `offset` lies in; it begins at `start`. -/
def LineAround (cs : List Char) (offset start : Nat) (line : List Char) : Prop :=
  ∃ before after, cs = before ++ line ++ after ∧ before.length = start ∧
    start ≤ offset ∧ offset < start + line.length ∧
    (∀ c ∈ before.getLast?, isLineBreak c = true) ∧ (∀ c ∈ line, isLineBreak c = false) ∧
    ∀ c ∈ after.head?, isLineBreak c = true

def BrokenByFeeds (cs : List Char) : Prop :=
  ∀ ⦃c after⦄, c :: after <:+ cs → isLineBreak c = true → c = '\n' ∨ c = '\r' ∧ after.head? = some '\n'

variable {c : Char} {cs current before line rest after : List Char} {offset start : Nat}

theorem isLineBreak_feed : isLineBreak '\n' = true := by decide

theorem ne_feed_of_isLineBreak (h : isLineBreak c = false) : c ≠ '\n' := by
  rintro rfl
  rw [isLineBreak_feed] at h
  cases h

theorem endsLine_feed (rest : List Char) : endsLine '\n' rest = true := by
  simp [endsLine, isLineBreak_feed]

theorem endsLine_of_not_break (h : isLineBreak c = false) (rest : List Char) : endsLine c rest = false := by
  simp [endsLine, h]

theorem endsLine_iff : endsLine c rest = true ↔
    isLineBreak c = true ∧ ¬(c = '\r' ∧ rest.head? = some '\n') := by
  simp [endsLine, imp_iff_not_or]

theorem pending_of_endsLine (hbreak : isLineBreak c = true) (h : endsLine c rest = false) :
    c = '\r' ∧ rest.head? = some '\n' := by
  simpa [endsLine, hbreak] using h

/-- At the end of a piece a break ends its line, unless a line feed follows. -/
theorem endsLine_last (hbreak : isLineBreak c = true) (hrest : ∀ d ∈ rest.head?, isLineBreak d = false) :
    endsLine c rest = true := by
  refine endsLine_iff.mpr ⟨hbreak, ?_⟩
  rintro ⟨-, hhead⟩
  exact ne_feed_of_isLineBreak (hrest '\n' hhead) rfl

theorem endsLine_nil (h : isLineBreak c = true) : endsLine c [] = true := endsLine_last h (by simp)

/-- Whether a character ends its line does not depend on a line that begins after the piece. -/
theorem endsLine_append (hrest : ∀ d ∈ rest.head?, isLineBreak d = false) (c : Char) (cs : List Char) :
    endsLine c (cs ++ rest) = endsLine c cs := by
  cases cs with
  | cons d cs => simp [endsLine]
  | nil =>
    cases hbreak : isLineBreak c with
    | true => exact (endsLine_last hbreak hrest).trans (endsLine_nil hbreak).symm
    | false => simp [endsLine_of_not_break hbreak]

section Lines

theorem linesAfter_of_endsLine (h : endsLine c rest = true) (current : List Char) :
    linesAfter current (c :: rest) = current.reverse :: linesAfter [] rest := by
  obtain ⟨hbreak, hpending⟩ := endsLine_iff.mp h
  have hfeed : ∀ more, c = '\r' → rest = '\n' :: more → False :=
    fun more hc hrest => hpending ⟨hc, by rw [hrest]; rfl⟩
  rw [linesAfter.eq_3 _ _ _ hfeed, if_pos hbreak]

/-- A carriage return before a line feed is part of the break that the line feed is. -/
theorem linesAfter_of_pending (hbreak : isLineBreak c = true) (h : endsLine c rest = false)
    (current : List Char) : linesAfter current (c :: rest) = linesAfter current rest := by
  obtain ⟨rfl, hhead⟩ := pending_of_endsLine hbreak h
  obtain ⟨more, rfl⟩ := List.head?_eq_some_iff.mp hhead
  rw [linesAfter_of_endsLine (endsLine_feed more), linesAfter]

theorem linesAfter_of_not_break (h : isLineBreak c = false) (current rest : List Char) :
    linesAfter current (c :: rest) = linesAfter (c :: current) rest := by
  have hfeed : ∀ more, c = '\r' → rest = '\n' :: more → False := by
    rintro more rfl -
    revert h
    decide
  rw [linesAfter.eq_3 _ _ _ hfeed, h]
  rfl

/-- A piece that ends with a break is read into lines of its own, one for each of its ends. -/
theorem linesAfter_append (current : List Char) (hcurrent : before = [] → current = [])
    (hlast : ∀ c ∈ before.getLast?, isLineBreak c = true)
    (hrest : ∀ c ∈ rest.head?, isLineBreak c = false) :
    ∃ ended, linesAfter current (before ++ rest) = ended ++ linesAfter [] rest ∧
      ended.length = lineEnds before := by
  induction before generalizing current with
  | nil =>
    rw [hcurrent rfl]
    exact ⟨[], rfl, rfl⟩
  | cons c before ih =>
    have hends : endsLine c (before ++ rest) = endsLine c before := endsLine_append hrest c before
    have hbefore : ∀ c ∈ before.getLast?, isLineBreak c = true := by
      intro d hd
      have happended : d ∈ ([c] ++ before).getLast? := List.mem_getLast?_append_of_mem_getLast? hd
      exact hlast d happended
    rw [List.cons_append, lineEnds]
    cases hend : endsLine c before with
    | true =>
      obtain ⟨ended, hlines, hlength⟩ := ih [] (fun _ => rfl) hbefore
      rw [linesAfter_of_endsLine (hends.trans hend), hlines]
      exact ⟨current.reverse :: ended, rfl, congrArg (· + 1) hlength⟩
    | false =>
      -- The last character would end its line, so more follows in the piece.
      have hmore : before ≠ [] := by
        rintro rfl
        rw [endsLine_nil (hlast c rfl)] at hend
        cases hend
      cases hbreak : isLineBreak c with
      | true =>
        rw [linesAfter_of_pending hbreak (hends.trans hend)]
        exact ih _ (fun hnil => absurd hnil hmore) hbefore
      | false =>
        rw [linesAfter_of_not_break hbreak]
        exact ih _ (fun hnil => absurd hnil hmore) hbefore

theorem linesAfter_line (current : List Char) (hline : ∀ c ∈ line, isLineBreak c = false)
    (hnonempty : current ++ line ≠ []) (hafter : ∀ c ∈ after.head?, isLineBreak c = true) :
    ∃ more, linesAfter current (line ++ after) = (current.reverse ++ line) :: more := by
  induction line generalizing current with
  | nil =>
    rw [List.append_nil] at hnonempty
    rw [List.nil_append, List.append_nil]
    cases after with
    | nil => exact ⟨[], by simp [linesAfter, hnonempty]⟩
    | cons c rest =>
      cases hend : endsLine c rest with
      | true => exact ⟨_, linesAfter_of_endsLine hend current⟩
      | false =>
        have hbreak : isLineBreak c = true := hafter c rfl
        obtain ⟨-, hhead⟩ := pending_of_endsLine hbreak hend
        obtain ⟨more, rfl⟩ := List.head?_eq_some_iff.mp hhead
        rw [linesAfter_of_pending hbreak hend]
        exact ⟨_, linesAfter_of_endsLine (endsLine_feed more) current⟩
  | cons c line ih =>
    obtain ⟨hc, hline⟩ := List.forall_mem_cons.mp hline
    obtain ⟨more, hmore⟩ := ih (c :: current) hline (by simp)
    rw [List.cons_append, linesAfter_of_not_break hc, hmore]
    exact ⟨more, by simp⟩

theorem lineEnds_of_not_break (h : ∀ c ∈ cs, isLineBreak c = false) : lineEnds cs = 0 := by
  induction cs with
  | nil => rfl
  | cons c cs ih =>
    obtain ⟨hc, hcs⟩ := List.forall_mem_cons.mp h
    rw [lineEnds, endsLine_of_not_break hc]
    exact ih hcs

theorem lineEnds_append (hrest : ∀ c ∈ rest.head?, isLineBreak c = false) :
    lineEnds (before ++ rest) = lineEnds before + lineEnds rest := by
  induction before with
  | nil => simp [lineEnds]
  | cons c before ih =>
    rw [List.cons_append, lineEnds, lineEnds, endsLine_append hrest, ih]
    split <;> omega

end Lines

section Counting

theorem brokenByFeeds_nil : BrokenByFeeds [] := by
  intro c after hsuffix
  cases List.suffix_nil.mp hsuffix

theorem brokenByFeeds_cons : BrokenByFeeds (c :: cs) ↔
    (isLineBreak c = true → c = '\n' ∨ c = '\r' ∧ cs.head? = some '\n') ∧ BrokenByFeeds cs := by
  constructor
  · intro h
    refine ⟨fun hbreak => h (List.suffix_refl _) hbreak, fun d after hsuffix hbreak => ?_⟩
    exact h (hsuffix.trans (List.suffix_cons c cs)) hbreak
  · rintro ⟨hc, hcs⟩ d after hsuffix hbreak
    rcases List.suffix_cons_iff.mp hsuffix with heq | hsuffix
    · obtain ⟨rfl, rfl⟩ := List.cons.inj heq
      exact hc hbreak
    · exact hcs hsuffix hbreak

/-- Line feeds are among the ends of lines. They are all of them where every break is by a line feed. -/
theorem count_feeds (cs : List Char) :
    cs.count '\n' ≤ lineEnds cs ∧ (cs.count '\n' = lineEnds cs ↔ BrokenByFeeds cs) := by
  -- A line feed adds one to both numbers. Any other character adds to the ends of lines only, if at all.
  induction cs with
  | nil => exact ⟨Nat.le_refl 0, fun _ => brokenByFeeds_nil, fun _ => rfl⟩
  | cons c cs ih =>
    rw [brokenByFeeds_cons, ← ih.2, lineEnds, List.count_cons]
    by_cases hfeed : c = '\n'
    · subst hfeed
      rw [endsLine_feed]
      simp only [beq_self_eq_true, ↓reduceIte, true_or, implies_true, true_and]
      omega
    have hcount : (c == '\n') = false := by simpa using hfeed
    cases hend : endsLine c cs with
    | true =>
      obtain ⟨hbreak, hpending⟩ := endsLine_iff.mp hend
      have hother : ¬(c = '\n' ∨ c = '\r' ∧ cs.head? = some '\n') := not_or.mpr ⟨hfeed, hpending⟩
      simp only [hcount, Bool.false_eq_true, ↓reduceIte, hbreak, hother, imp_false, not_true, false_and,
        iff_false]
      omega
    | false =>
      have hsettled : isLineBreak c = true → c = '\n' ∨ c = '\r' ∧ cs.head? = some '\n' := by
        intro hbreak
        exact .inr (pending_of_endsLine hbreak hend)
      simp only [hcount, Bool.false_eq_true, ↓reduceIte, Nat.add_zero, iff_and_self]
      exact ⟨ih.1, fun _ => hsettled⟩

end Counting

theorem exists_lastLine (cs : List Char) :
    ∃ before line, cs = before ++ line ∧ (∀ c ∈ before.getLast?, isLineBreak c = true) ∧
      ∀ c ∈ line, isLineBreak c = false := by
  induction cs with
  | nil => exact ⟨[], [], rfl, nofun, nofun⟩
  | cons c cs ih =>
    obtain ⟨before, line, rfl, hlast, hline⟩ := ih
    rcases eq_or_ne before [] with rfl | hne
    · cases hbreak : isLineBreak c with
      | true => exact ⟨[c], line, rfl, by simpa using hbreak, hline⟩
      | false => exact ⟨[], c :: line, rfl, nofun, List.forall_mem_cons.mpr ⟨hbreak, hline⟩⟩
    · refine ⟨c :: before, line, rfl, ?_, hline⟩
      intro d hd
      rw [List.getLast?_cons_of_ne_nil hne] at hd
      exact hlast d hd

/-- Every character that is no line break lies in a line. -/
theorem exists_lineAround (hc : cs[offset]? = some c) (hbreak : isLineBreak c = false) :
    ∃ start line, LineAround cs offset start line := by
  obtain ⟨hlt, hget⟩ := List.getElem?_eq_some_iff.mp hc
  obtain ⟨before, first, hbefore, hlast, hfirst⟩ := exists_lastLine (cs.take offset)
  have hlength : before.length + first.length = offset := by
    have h := congrArg List.length hbefore
    rw [List.length_take_of_le (Nat.le_of_lt hlt), List.length_append] at h
    exact h.symm
  let further := (cs.drop (offset + 1)).takeWhile fun d => !isLineBreak d
  let after := (cs.drop (offset + 1)).dropWhile fun d => !isLineBreak d
  refine ⟨before.length, first ++ c :: further, before, after, ?_, rfl, ?_, ?_, hlast, ?_, ?_⟩
  · have hrest : further ++ after = cs.drop (offset + 1) := List.takeWhile_append_dropWhile
    have hcut : cs.drop offset = c :: cs.drop (offset + 1) := by
      rw [← hget]
      exact List.drop_eq_getElem_cons hlt
    calc cs = cs.take offset ++ cs.drop offset := (List.take_append_drop offset cs).symm
      _ = before ++ first ++ c :: (further ++ after) := by rw [hbefore, hcut, hrest]
      _ = before ++ (first ++ c :: further) ++ after := by simp
  · omega
  · simp only [List.length_append, List.length_cons]
    omega
  · intro d hd
    rcases List.mem_append.mp hd with hd | hd
    · exact hfirst d hd
    rcases List.mem_cons.mp hd with rfl | hd
    · exact hbreak
    · simpa using (List.all_eq_true.mp List.all_takeWhile) d hd
  · intro d hd
    have hstop := List.head?_dropWhile_not (fun d => !isLineBreak d) (cs.drop (offset + 1))
    have hafter : ((cs.drop (offset + 1)).dropWhile fun d => !isLineBreak d).head? = some d := hd
    rw [hafter] at hstop
    simpa using hstop

theorem take_append_line (hstart : before.length ≤ offset) (hend : offset < before.length + line.length)
    (after : List Char) :
    (before ++ line ++ after).take offset = before ++ line.take (offset - before.length) := by
  rw [List.append_assoc, List.take_append, List.take_of_length_le hstart,
    List.take_append_of_le_length (by omega)]

namespace LineAround

variable (h : LineAround cs offset start line)

include h

/-- The lines that end before the position come before its line. -/
theorem lines_getElem? : (lines cs)[lineEnds (cs.take offset)]? = some line := by
  obtain ⟨before, after, rfl, rfl, hstart, hend, hlast, hline, hafter⟩ := h
  have hne : line ≠ [] := by
    rintro rfl
    simp only [List.length_nil] at hend
    omega
  have hhead : ∀ c ∈ (line ++ after).head?, isLineBreak c = false := by
    intro c hc
    rw [List.head?_append_of_ne_nil line hne] at hc
    exact hline c (List.mem_of_mem_head? hc)
  have htake := take_append_line hstart hend after
  have htaken : ∀ c ∈ line.take (offset - before.length), isLineBreak c = false :=
    fun c hc => hline c (List.mem_of_mem_take hc)
  have hcount : lineEnds ((before ++ line ++ after).take offset) = lineEnds before := by
    rw [htake, lineEnds_append fun c hc => htaken c (List.mem_of_mem_head? hc), lineEnds_of_not_break htaken]
    rfl
  obtain ⟨ended, hlines, hlength⟩ := linesAfter_append [] (fun _ => rfl) hlast hhead
  obtain ⟨more, hmore⟩ := linesAfter_line [] hline (by simpa using hne) hafter
  rw [hcount, lines, List.append_assoc, hlines, hmore, ← hlength]
  simp

/-- Where only line feeds break lines, columns count from the beginning of the line. -/
theorem start_add_columnOf (hfeeds : BrokenByFeeds (cs.take offset)) :
    start + columnOf cs offset = offset + 1 := by
  obtain ⟨before, after, rfl, rfl, hstart, hend, hlast, hline, hafter⟩ := h
  have htake := take_append_line hstart hend after
  rw [htake] at hfeeds
  have htaken : ∀ c ∈ line.take (offset - before.length), isLineBreak c = false :=
    fun c hc => hline c (List.mem_of_mem_take hc)
  have hlength : (line.take (offset - before.length)).length = offset - before.length :=
    List.length_take_of_le (by omega)
  generalize line.take (offset - before.length) = first at htake hfeeds htaken hlength
  -- The break before the line is a line feed: after a carriage return there would be one in the line.
  have hfeed : ∀ c ∈ before.reverse.head?, c = '\n' := by
    intro c hc
    rw [List.head?_reverse] at hc
    obtain ⟨earlier, rfl⟩ := List.getLast?_eq_some_iff.mp hc
    have hsuffix : c :: first <:+ earlier ++ [c] ++ first := by simp
    rcases hfeeds hsuffix (hlast c hc) with hc | ⟨-, hhead⟩
    · exact hc
    · have hbreak := htaken '\n' (List.mem_of_mem_head? hhead)
      exact absurd rfl (ne_feed_of_isLineBreak hbreak)
  have hpassed : ∀ c ∈ first.reverse, decide (c ≠ '\n') = true := by
    intro c hc
    simpa using ne_feed_of_isLineBreak (htaken c (List.mem_reverse.mp hc))
  have hstopped : before.reverse.takeWhile (fun c => decide (c ≠ '\n')) = [] := by
    cases hreverse : before.reverse with
    | nil => rfl
    | cons c earlier =>
      have hc := hfeed c (by rw [hreverse]; rfl)
      simp [hc]
  unfold columnOf
  rw [htake, List.reverse_append, List.takeWhile_append_of_pos hpassed, hstopped]
  simp only [List.append_nil, List.length_reverse]
  omega

/-- The character at the position stands in the line where the column says. -/
theorem getElem?_columnOf (hfeeds : BrokenByFeeds (cs.take offset)) :
    (line)[columnOf cs offset - 1]? = cs[offset]? := by
  have hcolumn := h.start_add_columnOf hfeeds
  obtain ⟨before, after, rfl, rfl, hstart, hend, -, -, -⟩ := h
  have hplace : columnOf (before ++ line ++ after) offset - 1 = offset - before.length := by omega
  rw [hplace, List.append_assoc, List.getElem?_append_right hstart,
    List.getElem?_append_left (by omega)]

end LineAround

end Formula.Text
