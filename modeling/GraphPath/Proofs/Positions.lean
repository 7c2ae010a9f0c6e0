import GraphPath.Parser.Basic
import GraphPath.Proofs.Spelling

/-!
# Positions and offsets

A place in a text is reported as a line and a column. The column is the number of bytes since the
last newline, and the line counts the newlines before the place, except where a line starts: no line
follows a final newline, so the start of a line is reported as the line before it. Two places of one
text have the same position only if they are the start of the text and the start of its second
line.
-/

namespace GraphPath

namespace Text

private theorem byteCount_append (s t : List Char) :
    byteCount (s ++ t) = byteCount s + byteCount t := by
  induction s with
  | nil => simp [byteCount]
  | cons c s ih => simp only [List.cons_append, byteCount, ih, Nat.add_assoc]

private theorem byteCount_eq_zero_iff {s : List Char} : byteCount s = 0 ↔ s = [] := by
  cases s with
  | nil => simp [byteCount]
  | cons c s =>
    have hsize := c.utf8Size_pos
    simp [byteCount]
    omega

private theorem takeBytes_byteCount (before behind : List Char) :
    takeBytes (byteCount before) (before ++ behind) = before := by
  induction before with
  | nil =>
    cases behind with
    | nil => rfl
    | cons c behind =>
      have hsize := c.utf8Size_pos
      simp [byteCount, takeBytes]
      omega
  | cons c before ih => simp [byteCount, takeBytes, ih]

/-! ## Lines -/

/-- Every line that the text starts it ends with a newline. -/
def WholeLines (s : List Char) : Prop := s = [] ∨ s.getLast? = some '\n'

instance (s : List Char) : Decidable (WholeLines s) := inferInstanceAs (Decidable (_ ∨ _))

private theorem wholeLines_cons_cons (c d : Char) (s : List Char) :
    WholeLines (c :: d :: s) ↔ WholeLines (d :: s) := by
  simp [WholeLines]

private theorem lines_ne_nil {s : List Char} (h : s ≠ []) : lines s ≠ [] := by
  cases s with
  | nil => exact absurd rfl h
  | cons c s =>
    rw [lines]
    split
    · simp
    · split <;> simp

private theorem length_lines (s : List Char) :
    (lines s).length = s.count '\n' + if WholeLines s then 0 else 1 := by
  induction s with
  | nil => simp [lines, WholeLines]
  | cons c s ih =>
    cases s with
    | nil => by_cases hc : c = '\n' <;> simp [lines, WholeLines, hc]
    | cons d s =>
      simp only [wholeLines_cons_cons]
      by_cases hc : c = '\n'
      · rw [lines, if_pos hc, List.length_cons, ih, hc, List.count_cons_self]
        omega
      · rw [List.count_cons_of_ne hc, ← ih, lines, if_neg hc]
        cases hlines : lines (d :: s) with
        | nil => exact absurd hlines (lines_ne_nil (List.cons_ne_nil d s))
        | cons line more => rfl

private theorem lastLine_append {whole part : List Char} (hwhole : WholeLines whole)
    (hpart : '\n' ∉ part) :
    lastLine (whole ++ part) = part := by
  have hrun : ∀ c ∈ part.reverse, decide (c ≠ '\n') = true := by
    intro c hc
    simpa using ne_of_mem_of_not_mem (List.mem_reverse.1 hc) hpart
  have hstop : ∀ c ∈ whole.reverse.head?, decide (c ≠ '\n') = false := by
    intro c hc
    rw [List.head?_reverse] at hc
    rcases hwhole with rfl | hnewline
    · cases hc
    · rw [hnewline] at hc
      cases hc
      decide
  rw [lastLine, List.reverse_append, takeWhile_append hrun hstop, List.reverse_reverse]

private theorem exists_whole_lines (s : List Char) :
    ∃ whole part, s = whole ++ part ∧ WholeLines whole ∧ '\n' ∉ part := by
  refine ⟨(s.reverse.dropWhile (· ≠ '\n')).reverse, (s.reverse.takeWhile (· ≠ '\n')).reverse,
    ?_, ?_, ?_⟩
  · rw [← List.reverse_append, List.takeWhile_append_dropWhile, List.reverse_reverse]
  · unfold WholeLines
    rw [List.getLast?_reverse, List.reverse_eq_nil_iff]
    cases hdrop : s.reverse.dropWhile (· ≠ '\n') with
    | nil => exact .inl rfl
    | cons c rest =>
      have hhead := List.head?_dropWhile_not (· ≠ '\n') s.reverse
      rw [hdrop] at hhead
      exact .inr (by simpa using hhead)
  · rw [List.mem_reverse]
    intro hmem
    simpa using List.all_eq_true.1 List.all_takeWhile '\n' hmem

/-! ## Positions -/

private theorem Position.line_after (before : List Char) :
    (Position.after before).line =
      before.count '\n' + if before.getLast? = some '\n' then 0 else 1 := by
  have hafter : (Position.after before).line = max 1 (lines before).length := rfl
  rw [hafter, length_lines]
  by_cases hempty : before = []
  · simp [hempty, WholeLines]
  · by_cases hlast : before.getLast? = some '\n'
    · have hmem : 0 < before.count '\n' :=
        List.count_pos_iff.2 (List.mem_of_getLast? hlast)
      have hwhole : WholeLines before := .inr hlast
      rw [if_pos hwhole, if_pos hlast]
      omega
    · have hpart : ¬ WholeLines before := not_or_intro hempty hlast
      rw [if_neg hpart, if_neg hlast]
      omega

private theorem Position.column_after {whole part : List Char} (hwhole : WholeLines whole)
    (hpart : '\n' ∉ part) : (Position.after (whole ++ part)).column = byteCount part + 1 := by
  rw [Position.after, lastLine_append hwhole hpart]

/-- The text is one line with its newline. -/
def IsOneLine (s : List Char) : Prop := ∃ line, s = line ++ ['\n'] ∧ '\n' ∉ line

private theorem isOneLine_of_count {s : List Char} (hlast : s.getLast? = some '\n')
    (hcount : s.count '\n' = 1) : IsOneLine s := by
  obtain ⟨line, rfl⟩ := List.getLast?_eq_some_iff.1 hlast
  refine ⟨line, rfl, List.count_eq_zero.1 ?_⟩
  simpa using hcount

private theorem Position.eq_of_line_of_column {p q : Position} (hline : p.line = q.line)
    (hcolumn : p.column = q.column) : p = q := by
  cases p
  cases q
  exact congrArg₂ Position.mk hline hcolumn

private theorem Position.after_of_isOneLine {s : List Char} (h : IsOneLine s) :
    Position.after s = Position.after [] := by
  obtain ⟨line, rfl, hline⟩ := h
  have hcount : line.count '\n' = 0 := List.count_eq_zero.2 hline
  have hends : WholeLines (line ++ ['\n']) := .inr (by simp)
  have hcolumn := Position.column_after hends List.not_mem_nil
  rw [List.append_nil] at hcolumn
  refine Position.eq_of_line_of_column ?_ hcolumn
  simp [Position.line_after, hcount]

/-- A longer beginning of a text has another position, unless it is the first line and the shorter
one is empty. -/
theorem Position.isOneLine_of_after_append_eq {before more : List Char} (hmore : more ≠ [])
    (h : Position.after (before ++ more) = Position.after before) :
    before = [] ∧ IsOneLine more := by
  have hline := congrArg Position.line h
  have hcolumn := congrArg Position.column h
  obtain ⟨whole, part, hbefore, hwhole, hpart⟩ := exists_whole_lines before
  rw [hbefore, Position.column_after hwhole hpart] at hcolumn
  by_cases hnewline : '\n' ∈ more
  · obtain ⟨whole', part', rfl, hwhole', hpart'⟩ := exists_whole_lines more
    have hlast' : whole'.getLast? = some '\n' := by
      refine hwhole'.resolve_left ?_
      rintro rfl
      exact hpart' hnewline
    have hends : WholeLines (whole ++ part ++ whole') := .inr (by simp [hlast'])
    rw [← List.append_assoc, Position.column_after hends hpart'] at hcolumn
    -- only a newline at the end makes up for the one that was passed
    have hcount : 0 < (whole' ++ part').count '\n' := List.count_pos_iff.2 hnewline
    rw [Position.line_after, Position.line_after, List.count_append] at hline
    have hstart : before.getLast? ≠ some '\n' := by
      intro hlast
      rw [if_pos hlast] at hline
      omega
    have hlast : (before ++ (whole' ++ part')).getLast? = some '\n' := by
      by_contra hne
      rw [if_neg hne, if_neg hstart] at hline
      omega
    rw [if_pos hlast, if_neg hstart] at hline
    have hpart'_nil : part' = [] := by
      by_contra hne
      rw [← List.append_assoc, List.getLast?_append_of_ne_nil _ hne] at hlast
      exact hpart' (List.mem_of_getLast? hlast)
    have hpart_nil : part = [] := by
      rw [hpart'_nil] at hcolumn
      exact byteCount_eq_zero_iff.1 (Nat.succ.inj hcolumn).symm
    have hwhole_nil : whole = [] := by
      refine hwhole.resolve_right fun hlast => hstart ?_
      rw [hbefore, hpart_nil, List.append_nil, hlast]
    subst hpart'_nil
    rw [List.append_nil] at hline ⊢
    exact ⟨by rw [hbefore, hwhole_nil, hpart_nil]; rfl, isOneLine_of_count hlast' (by omega)⟩
  · have hpart' : '\n' ∉ part ++ more := by simp [hpart, hnewline]
    rw [List.append_assoc, Position.column_after hwhole hpart', byteCount_append] at hcolumn
    exact absurd (byteCount_eq_zero_iff.1 (by omega)) hmore

/-! ## Offsets -/

/-- The places between the characters of a text, and at its ends, counted in bytes. -/
def IsOffset (text : List Char) (o : Nat) : Prop :=
  ∃ before behind, text = before ++ behind ∧ byteCount before = o

/-- The offset at which the second line starts. -/
def StartsSecondLine (text : List Char) (o : Nat) : Prop :=
  ∃ before behind, text = before ++ behind ∧ byteCount before = o ∧ IsOneLine before

private theorem StartsSecondLine.position {text : List Char} {o : Nat}
    (h : StartsSecondLine text o) :
    Position.after (takeBytes o text) = Position.after [] := by
  obtain ⟨before, behind, rfl, rfl, hline⟩ := h
  rw [takeBytes_byteCount, Position.after_of_isOneLine hline]

private theorem takeBytes_zero (text : List Char) :
    takeBytes 0 text = [] := takeBytes_byteCount [] text

/-- Of two places with the same position the later one starts the second line, if they differ. -/
theorem Position.startsSecondLine_of_eq {before more : List Char} (behind : List Char)
    (h : Position.after (before ++ more) = Position.after before) :
    more = [] ∨ before = [] ∧
      StartsSecondLine (before ++ more ++ behind) (byteCount (before ++ more)) := by
  by_cases hmore : more = []
  · exact .inl hmore
  · obtain ⟨rfl, hline⟩ := isOneLine_of_after_append_eq hmore h
    exact .inr ⟨rfl, more, behind, rfl, rfl, hline⟩

private theorem Position.after_eq_iff {text : List Char} {o o' : Nat} (ho : IsOffset text o)
    (ho' : IsOffset text o') :
    Position.after (takeBytes o' text) = Position.after (takeBytes o text) ↔
      o' = o ∨ (o = 0 ∧ StartsSecondLine text o') ∨ (o' = 0 ∧ StartsSecondLine text o) := by
  constructor
  · intro h
    obtain ⟨before, behind, rfl, rfl⟩ := ho
    obtain ⟨before', behind', heq, rfl⟩ := ho'
    rw [takeBytes_byteCount, heq, takeBytes_byteCount] at h
    rcases List.append_eq_append_iff.1 heq with ⟨more, rfl, rfl⟩ | ⟨more, rfl, rfl⟩
    · rcases startsSecondLine_of_eq behind' h with rfl | ⟨rfl, hstart⟩
      · exact .inl (by rw [List.append_nil])
      · exact .inr (.inl ⟨rfl, by rwa [heq]⟩)
    · rcases startsSecondLine_of_eq behind h.symm with rfl | ⟨rfl, hstart⟩
      · exact .inl (by rw [List.append_nil])
      · exact .inr (.inr ⟨rfl, hstart⟩)
  · rintro (rfl | ⟨rfl, hstart⟩ | ⟨rfl, hstart⟩)
    · rfl
    · rw [hstart.position, takeBytes_zero]
    · rw [hstart.position, takeBytes_zero]

end Text

private theorem Failure.position_eq (f : Failure) (text : List Char) :
    f.position text = .after (Text.takeBytes (f.offset text) text) := by
  have htake := Text.takeBytes_byteCount (text.take f.reach) (text.drop f.reach)
  rw [List.take_append_drop] at htake
  rw [position, offset, htake]

namespace Text

/-- What is reported for an offset of a text. The column counts the bytes since the last newline.
The line counts the newlines before the offset, and one more unless the last of them stands right
before it. Another offset has the same position only if one of the two is the start of the text and
the other the start of its second line. -/
theorem Position.of_offset {text : List Char} {o : Nat} (ho : IsOffset text o) :
    let before := takeBytes o text
    let p := Position.after before
    (before <+: text ∧ byteCount before = o) ∧
    (∃ whole part, before = whole ++ part ∧ WholeLines whole ∧ '\n' ∉ part ∧
      p.column = byteCount part + 1) ∧
    p.line = before.count '\n' + (if before.getLast? = some '\n' then 0 else 1) ∧
    (∀ o', IsOffset text o' → (Position.after (takeBytes o' text) = p ↔
      o' = o ∨ (o = 0 ∧ StartsSecondLine text o') ∨ (o' = 0 ∧ StartsSecondLine text o))) ∧
    ∀ f : Failure, f.offset text = o → f.position text = p := by
  intro before p
  have hbefore : before <+: text ∧ byteCount before = o := by
    obtain ⟨b, behind, rfl, rfl⟩ := ho
    have htake : before = b := takeBytes_byteCount b behind
    rw [htake]
    exact ⟨List.prefix_append b behind, rfl⟩
  obtain ⟨whole, part, hsplit, hwhole, hpart⟩ := exists_whole_lines before
  refine ⟨hbefore, ⟨whole, part, hsplit, hwhole, hpart, ?_⟩, line_after before,
    fun o' ho' => after_eq_iff ho ho', ?_⟩
  · simp only [p, hsplit, column_after hwhole hpart]
  · rintro f rfl
    exact f.position_eq text

/-- After a line that ends with a carriage return and a newline, behind a character of two bytes. -/
theorem Position.of_offset_second_line :
    let text := "a\r\né b".toList
    Position.after (takeBytes 5 text) = ⟨2, 3⟩ ∧
      ∀ o', IsOffset text o' → Position.after (takeBytes o' text) = ⟨2, 3⟩ → o' = 5 := by
  intro text
  have hposition : Position.after (takeBytes 5 text) = ⟨2, 3⟩ := by decide
  obtain ⟨-, -, -, hunique, -⟩ := Position.of_offset
    (⟨"a\r\né".toList, " b".toList, by decide, by decide⟩ : IsOffset text 5)
  refine ⟨hposition, fun o' ho' h => ?_⟩
  rcases (hunique o' ho').1 (h.trans hposition.symm) with rfl | ⟨hzero, -⟩ | ⟨rfl, -⟩
  · rfl
  · cases hzero
  · exact absurd h (by decide)

/-- The start of the second line is reported as the start of the first. -/
theorem Position.second_line_start :
    let text := "a\nb".toList
    (takeBytes 2 text).count '\n' = 1 ∧ Position.after (takeBytes 2 text) = ⟨1, 1⟩ ∧
      Position.after (takeBytes 0 text) = ⟨1, 1⟩ := by
  decide

end Text

end GraphPath
