import Formula.Library.Standard
import Formula.Session
import Formula.Proofs.Text.Line

/-! # The line at fault

Below its title a described failure has an excerpt: a line of the source and a caret. Where every line break
before the offset is a line feed, alone or after a carriage return, this is the line of the offset, with the
caret under the character there. After any other break it is an earlier line.
-/
namespace Formula.Report

def place (number column : Nat) : String :=
  " (line " ++ toString number ++ ", col " ++ toString column ++ ")\n"

def label (number : Nat) : String := "> " ++ toString number ++ " | "

def framed (number : Nat) (shown margin : List Char) : String :=
  label number ++ String.ofList shown ++ "\n" ++ String.ofList margin ++ "^"

/-- The excerpt shows the line around the offset. The column tells the character at the offset in this line,
and the caret stands under it, after nothing but blanks and the bar. -/
def PointsAt (cs : List Char) (offset number column : Nat) (excerpt : String) : Prop :=
  ∃ start line margin, Text.LineAround cs offset start line ∧ excerpt = framed number line margin ∧
    (line)[column - 1]? = cs[offset]? ∧ ((label number).toList ++ line)[margin.length]? = cs[offset]? ∧
    ∀ c ∈ margin, c = ' ' ∨ c = '|'

def ShowsEarlier (cs : List Char) (offset number : Nat) (excerpt : String) : Prop :=
  ∃ shown margin, number ≤ Text.lineEnds (cs.take offset) ∧ (Text.lines cs)[number - 1]? = some shown ∧
    excerpt = framed number shown margin

variable {source : String} {failure : Failure} {cs shown : List Char} {offset number column : Nat} {c : Char}

theorem describe_eq (h : failure.offset? = some offset) :
    describe source failure =
      headline failure ++
        place (Text.lineOf source.toList offset) (Text.columnOf source.toList offset) ++
        excerpt source.toList (Text.lineOf source.toList offset) (Text.columnOf source.toList offset) := by
  simp only [describe, h, place, String.append_assoc]

def margin (number column : Nat) : List Char :=
  "  ".toList ++ List.replicate (toString number).length ' ' ++ " | ".toList ++
    List.replicate (column - 1) ' '

theorem excerpt_eq (h : (Text.lines cs)[number - 1]? = some shown) :
    excerpt cs number column = framed number shown (margin number column) := by
  have hlines : (Text.lines cs).isEmpty = false := by
    rw [List.isEmpty_eq_false_iff]
    intro hnone
    simp [hnone] at h
  unfold excerpt framed label margin
  simp only [hlines, Bool.false_eq_true, ↓reduceIte, h]
  apply String.toList_injective
  simp

theorem length_label (number : Nat) :
    (label number).toList.length = 5 + (toString number).length := by
  simp only [label, String.toList_append, List.length_append, String.length_toList]
  have hleft : "> ".length = 2 := by decide
  have hright : " | ".length = 3 := by decide
  omega

theorem length_margin (number column : Nat) :
    (margin number column).length = (label number).toList.length + (column - 1) := by
  rw [length_label]
  simp only [margin, List.length_append, List.length_replicate]
  have hleft : "  ".toList.length = 2 := by decide
  have hright : " | ".toList.length = 3 := by decide
  omega

theorem mem_margin (h : c ∈ margin number column) : c = ' ' ∨ c = '|' := by
  simp only [margin, List.mem_append, List.mem_replicate] at h
  rcases h with ((h | ⟨-, rfl⟩) | h) | ⟨-, rfl⟩
  · exact .inl (by simpa using h)
  · exact .inl rfl
  · have hbar : c = ' ' ∨ c = '|' ∨ c = ' ' := by simpa using h
    grind
  · exact .inl rfl

theorem pointsAt_excerpt {start : Nat} {line : List Char} (hline : Text.LineAround cs offset start line)
    (hfeeds : Text.BrokenByFeeds (cs.take offset)) :
    PointsAt cs offset (Text.lineOf cs offset) (Text.columnOf cs offset)
      (excerpt cs (Text.lineOf cs offset) (Text.columnOf cs offset)) := by
  have hshown : (Text.lines cs)[Text.lineOf cs offset - 1]? = some line := by
    have hnumber := hline.lines_getElem?
    rwa [← (Text.count_feeds _).2.mpr hfeeds] at hnumber
  have hcolumn := hline.getElem?_columnOf hfeeds
  refine ⟨start, line, margin _ _, hline, excerpt_eq hshown, hcolumn, ?_, fun c => mem_margin⟩
  rw [length_margin, List.getElem?_append_right (Nat.le_add_right _ _), Nat.add_sub_cancel_left]
  exact hcolumn

theorem showsEarlier_excerpt {start : Nat} {line : List Char} (hline : Text.LineAround cs offset start line)
    (hfeeds : ¬Text.BrokenByFeeds (cs.take offset)) :
    ShowsEarlier cs offset (Text.lineOf cs offset)
      (excerpt cs (Text.lineOf cs offset) (Text.columnOf cs offset)) := by
  obtain ⟨hle, hiff⟩ := Text.count_feeds (cs.take offset)
  have hne : (cs.take offset).count '\n' ≠ Text.lineEnds (cs.take offset) := fun heq => hfeeds (hiff.mp heq)
  have hless : (cs.take offset).count '\n' < Text.lineEnds (cs.take offset) := by omega
  obtain ⟨hlength, -⟩ := List.getElem?_eq_some_iff.mp hline.lines_getElem?
  have hshown : (Text.lines cs)[Text.lineOf cs offset - 1]? =
      some (Text.lines cs)[(cs.take offset).count '\n'] :=
    List.getElem?_eq_getElem (Nat.lt_trans hless hlength)
  exact ⟨_, _, hless, hshown, excerpt_eq hshown⟩

/-- A failure at a character is described with its place and an excerpt. The excerpt shows the line of the
character, and the caret stands under it, if every line break before is a line feed, alone or after a carriage
return; otherwise it shows a line that ends earlier. -/
theorem failure_shown_in_line (hoffset : failure.offset? = some offset)
    (hc : source.toList[offset]? = some c) (hbreak : Text.isLineBreak c = false) :
    ∃ number column excerpt, describe source failure = headline failure ++ place number column ++ excerpt ∧
      (Text.BrokenByFeeds (source.toList.take offset) →
        PointsAt source.toList offset number column excerpt) ∧
      (¬Text.BrokenByFeeds (source.toList.take offset) →
        ShowsEarlier source.toList offset number excerpt) := by
  obtain ⟨start, line, hline⟩ := Text.exists_lineAround hc hbreak
  exact ⟨_, _, _, describe_eq hoffset, pointsAt_excerpt hline, showsEarlier_excerpt hline⟩

/-- The failure of `1`, a carriage return with a line feed, and `+ *`. -/
theorem carriageReturnFeed_shown :
    "1\r\n+ *".toList[5]? = some '*' ∧ Text.isLineBreak '*' = false ∧
      ∃ number column excerpt,
        describe "1\r\n+ *" (.at (.unknownUnaryOperator "*") 5) =
          headline (.at (.unknownUnaryOperator "*") 5) ++ place number column ++ excerpt ∧
        PointsAt "1\r\n+ *".toList 5 number column excerpt := by
  have hfeeds : Text.BrokenByFeeds ("1\r\n+ *".toList.take 5) := (Text.count_feeds _).2.mp (by decide)
  have hc : "1\r\n+ *".toList[5]? = some '*' := by decide
  have hbreak : Text.isLineBreak '*' = false := by decide
  have hoffset : (Failure.at (.unknownUnaryOperator "*") 5).offset? = some 5 := rfl
  obtain ⟨number, column, excerpt, htext, hpoints, -⟩ := failure_shown_in_line hoffset hc hbreak
  exact ⟨hc, hbreak, number, column, excerpt, htext, hpoints hfeeds⟩

/-- After a lone carriage return the line before it is shown, and the caret stands under nothing. -/
theorem carriageReturn_hides_line :
    (∃ session, Session.start {} .standard {} = .ok session ∧
      (session.run "1\r)" []).toOption.map (fun ran => ran.1.failureText) =
        some "ExpressionSyntaxError: Mismatched parentheses (line 1, col 3)\n> 1 | 1\n    |   ^") ∧
    ¬∀ (source : String) (failure : Failure) (offset : Nat) (c : Char), failure.offset? = some offset →
      source.toList[offset]? = some c → Text.isLineBreak c = false →
        ∃ number column excerpt,
          describe source failure = headline failure ++ place number column ++ excerpt ∧
          PointsAt source.toList offset number column excerpt := by
  refine ⟨⟨_, rfl, by decide +kernel⟩, fun h => ?_⟩
  obtain ⟨number, column, excerpt, htext, start, line, below, hline, rfl, -⟩ :=
    h "1\r)" (.at .mismatchedParentheses 2) 2 ')' rfl (by decide) (by decide)
  obtain rfl : [')'] = line := Option.some.inj (Eq.trans (by decide) hline.lines_getElem?)
  have hdescribed : describe "1\r)" (.at .mismatchedParentheses 2) =
      headline (.at .mismatchedParentheses 2) ++ " (line 1, col 3)\n> 1 | 1\n    |   ^" := by decide +kernel
  rw [hdescribed, String.append_assoc, String.append_right_inj] at htext
  -- The parenthesis at fault would be the second one after the title.
  have hparentheses := congrArg (fun text => text.toList.count ')') htext
  simp only [place, framed, label, String.toList_append, List.count_append, String.toList_ofList,
    List.count_cons_self] at hparentheses
  have hone : " (line 1, col 3)\n> 1 | 1\n    |   ^".toList.count ')' = 1 := by decide
  have hplace : ")\n".toList.count ')' = 1 := by decide
  omega

end Formula.Report
