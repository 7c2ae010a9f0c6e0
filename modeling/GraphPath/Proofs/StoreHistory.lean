import Mathlib.Algebra.GroupWithZero.Nat
import GraphPath.Proofs.Outcomes
import GraphPath.Store.Basic

/-!
# Histories of stores

A store is filled by single statements, by lists of them and by texts, in any order, and texts may
fail to be read. Whatever was done, the store lists each statement once, in the order in which the
statements first came in, and the numbers that were reported add up to its size. A text that fails
adds nothing, not even the statements above the line that cannot be read, and that line is the first
one that cannot be read with the short names declared above it.
-/

namespace GraphPath

/-! ## Lines of a text -/

namespace Statements

/-- The short name that a line declares, if it declares one. -/
def declared? (line : List Char) : Option (String × Iri) :=
  ((Parser.padded Parser.declaration).run (Text.trim line)).toOption

/-- The vocabulary after a line. -/
def advance (v : Vocabulary) (line : List Char) : Vocabulary :=
  match declared? line with
  | some (short, ns) => v.insert short ns.text
  | none => v

/-- A line that says something, and cannot be read under the vocabulary. -/
def IsUnreadable (v : Vocabulary) (line : List Char) : Prop :=
  isIdle (Text.trim line) = false ∧
    ∃ failure, (Parser.statementLine v).run (Text.trim line) = .error failure

/-- The line with number `n`, counted from one, cannot be read under the vocabulary with the short
names that the lines before it declare. -/
def IsFaulty (v : Vocabulary) (lines : List (List Char)) (n : Nat) : Prop :=
  ∃ before line after, lines = before ++ line :: after ∧ n = before.length + 1 ∧
    IsUnreadable (before.foldl advance v) line

/-- What a line states under a vocabulary; a line that is idle or declares a name states nothing. -/
def stated (v : Vocabulary) (line : List Char) : Except Failure (List Quad) :=
  if isIdle (Text.trim line) then .ok []
  else
    match (Parser.statementLine v).run (Text.trim line) with
    | .error failure => .error failure
    | .ok (.inl _) => .ok []
    | .ok (.inr q) => .ok [q]

/-- What the lines state one after the other, each under the vocabulary that those above it leave.
-/
def said (v : Vocabulary) : List (List Char) → List Quad
  | [] => []
  | line :: rest => (stated v line).toOption.getD [] ++ said (advance v line) rest

private theorem advance_of_declared {v : Vocabulary} {line : List Char} {short : String} {ns : Iri}
    (h : declared? line = some (short, ns)) : advance v line = v.insert short ns.text := by
  unfold advance
  rw [h]

theorem advance_of_not_declared {v : Vocabulary} {line : List Char} (h : declared? line = none) :
    advance v line = v := by
  unfold advance
  rw [h]

private theorem isUnreadable_iff {v : Vocabulary} {line : List Char} :
    IsUnreadable v line ↔ ∃ failure, stated v line = .error failure := by
  unfold IsUnreadable stated
  by_cases hidle : isIdle (Text.trim line) = true
  · simp [hidle]
  · cases (Parser.statementLine v).run (Text.trim line) with
    | error failure => simp [hidle]
    | ok read => cases read <;> simp [hidle]

/-! ### Declarations do not depend on the vocabulary -/

private theorem run_statementLine_eq_inl_iff {v : Vocabulary} {content : List Char}
    {d : String × Iri} :
    (Parser.statementLine v).run content = .ok (.inl d) ↔
      (Parser.padded Parser.declaration).run content = .ok d := by
  rw [Parser.run_eq_ok_iff, Parser.run_eq_ok_iff, Parser.statementLine]
  simp only [Parser.outcome_padded, Parser.outcome_either, Parser.outcome_map]
  cases Parser.outcome Parser.declaration (Text.skipBlanks content) with
  | some read => simp
  | none => cases Parser.outcome (Parser.statement v) (Text.skipBlanks content) <;> simp

theorem outcome_declaration_of_ne {content : List Char} (h : content.head? ≠ some '@') :
    Parser.outcome Parser.declaration content = none := by
  have hchars : "@prefix".toList = '@' :: "prefix".toList := by decide
  rw [Parser.declaration, hchars]
  cases content with
  | nil => simp
  | cons c rest =>
    have hne : c ≠ '@' := fun heq => h (congrArg some heq)
    simp [hne]

private theorem declared?_of_isIdle {line : List Char} (h : isIdle (Text.trim line) = true) :
    declared? line = none := by
  have hstart : (Text.skipBlanks (Text.trim line)).head? ≠ some '@' := by
    cases hcontent : Text.trim line with
    | nil => simp [Text.skipBlanks]
    | cons c rest =>
      rw [hcontent] at h
      obtain rfl : c = '#' := by simpa [isIdle] using h
      rw [Text.skipBlanks_of_not_blank rest (by decide)]
      simp
  unfold declared?
  cases hrun : (Parser.padded Parser.declaration).run (Text.trim line) with
  | error failure => rfl
  | ok d =>
    rw [Parser.run_eq_ok_iff, Parser.outcome_padded, outcome_declaration_of_ne hstart] at hrun
    cases hrun

theorem declared?_of_run_eq_inr {v : Vocabulary} {line : List Char} {q : Quad}
    (h : (Parser.statementLine v).run (Text.trim line) = .ok (.inr q)) : declared? line = none := by
  unfold declared?
  cases hdecl : (Parser.padded Parser.declaration).run (Text.trim line) with
  | error failure => rfl
  | ok d =>
    rw [run_statementLine_eq_inl_iff.2 hdecl] at h
    cases h

/-- Reading goes line by line: what a line states, and then the lines after it under the vocabulary
that the line leaves. -/
theorem parseFrom_cons (n : Nat) (v : Vocabulary) (line : List Char) (rest : List (List Char)) :
    parseFrom n v (line :: rest) =
      match stated v line with
      | .error failure => .error ⟨n, Text.trim line, failure⟩
      | .ok quads => (parseFrom (n + 1) (advance v line) rest).map (quads ++ ·) := by
  have hnothing (x : Except StatementError (List Quad)) : x.map ([] ++ ·) = x := by
    cases x <;> rfl
  rw [parseFrom, stated]
  by_cases hidle : isIdle (Text.trim line) = true
  · simp only [hidle, if_true, hnothing, advance_of_not_declared (declared?_of_isIdle hidle)]
  · simp only [if_neg hidle]
    cases hrun : (Parser.statementLine v).run (Text.trim line) with
    | error failure => rfl
    | ok read =>
      cases read with
      | inl d =>
        have hdeclared : declared? line = some d := by
          rw [declared?, run_statementLine_eq_inl_iff.1 hrun, Except.toOption]
        simp only [hnothing, advance_of_declared hdeclared]
      | inr q =>
        simp only [advance_of_not_declared (declared?_of_run_eq_inr hrun), List.singleton_append]

/-! ### The first line that cannot be read -/

private theorem isFaulty_cons_iff {v : Vocabulary} {line : List Char} {rest : List (List Char)}
    {n : Nat} :
    IsFaulty v (line :: rest) n ↔
      (n = 1 ∧ IsUnreadable v line) ∨ ∃ m, n = m + 1 ∧ IsFaulty (advance v line) rest m := by
  constructor
  · rintro ⟨before, line', after, hlines, rfl, hline⟩
    cases before with
    | nil =>
      cases hlines
      exact .inl ⟨rfl, hline⟩
    | cons first before =>
      cases hlines
      exact .inr ⟨_, rfl, before, line', after, rfl, rfl, hline⟩
  · rintro (⟨rfl, hline⟩ | ⟨m, rfl, before, line', after, rfl, rfl, hline⟩)
    · exact ⟨[], line, rest, rfl, rfl, hline⟩
    · exact ⟨line :: before, line', after, rfl, rfl, hline⟩

private theorem isLeast_of_parseFrom {n : Nat} {v : Vocabulary} {lines : List (List Char)}
    {e : StatementError} (h : parseFrom n v lines = .error e) :
    ∃ m, e.line = n + m ∧ IsFaulty v lines (m + 1) ∧ ∀ k, IsFaulty v lines k → m + 1 ≤ k := by
  induction lines generalizing n v with
  | nil => cases h
  | cons line rest ih =>
    rw [parseFrom_cons] at h
    cases hstated : stated v line with
    | error failure =>
      rw [hstated] at h
      cases h
      refine ⟨0, rfl, isFaulty_cons_iff.2 (.inl ⟨rfl, isUnreadable_iff.2 ⟨failure, hstated⟩⟩), ?_⟩
      rintro k ⟨before, line', after, -, rfl, -⟩
      omega
    | ok quads =>
      rw [hstated] at h
      cases hrest : parseFrom (n + 1) (advance v line) rest with
      | ok others =>
        rw [hrest] at h
        cases h
      | error e' =>
        rw [hrest] at h
        cases h
        obtain ⟨m, hline, hfaulty, hleast⟩ := ih hrest
        refine ⟨m + 1, by omega, isFaulty_cons_iff.2 (.inr ⟨m + 1, rfl, hfaulty⟩), ?_⟩
        intro k hk
        rcases isFaulty_cons_iff.1 hk with ⟨-, hunreadable⟩ | ⟨j, rfl, hj⟩
        · obtain ⟨failure, hfailure⟩ := isUnreadable_iff.1 hunreadable
          cases hstated.symm.trans hfailure
        · have := hleast j hj
          omega

private theorem parseFrom_cons_ok {n : Nat} {v : Vocabulary} {line : List Char}
    {rest : List (List Char)} {quads : List Quad} (h : parseFrom n v (line :: rest) = .ok quads) :
    ∃ here others, stated v line = .ok here ∧
      parseFrom (n + 1) (advance v line) rest = .ok others ∧ quads = here ++ others := by
  rw [parseFrom_cons] at h
  cases hstated : stated v line with
  | error failure =>
    rw [hstated] at h
    cases h
  | ok here =>
    rw [hstated] at h
    cases hrest : parseFrom (n + 1) (advance v line) rest with
    | error e =>
      rw [hrest] at h
      cases h
    | ok others =>
      rw [hrest] at h
      exact ⟨here, others, rfl, rfl, (Except.ok.inj h).symm⟩

private theorem not_isFaulty_of_parseFrom {n : Nat} {v : Vocabulary} {lines : List (List Char)}
    {quads : List Quad} (h : parseFrom n v lines = .ok quads) (k : Nat) : ¬ IsFaulty v lines k := by
  induction lines generalizing n v quads k with
  | nil =>
    rintro ⟨before, line, after, hlines, -⟩
    cases before <;> cases hlines
  | cons line rest ih =>
    obtain ⟨here, others, hhere, hothers, -⟩ := parseFrom_cons_ok h
    intro hk
    rcases isFaulty_cons_iff.1 hk with ⟨-, hunreadable⟩ | ⟨j, -, hj⟩
    · obtain ⟨failure, hfailure⟩ := isUnreadable_iff.1 hunreadable
      cases hhere.symm.trans hfailure
    · exact ih hothers j hj

/-- A text that is read gives what its lines state. -/
theorem eq_said_of_parseFrom {n : Nat} {v : Vocabulary} {lines : List (List Char)}
    {quads : List Quad} (h : parseFrom n v lines = .ok quads) : quads = said v lines := by
  induction lines generalizing n v quads with
  | nil => exact (Except.ok.inj h).symm
  | cons line rest ih =>
    obtain ⟨here, others, hhere, hothers, rfl⟩ := parseFrom_cons_ok h
    rw [said, hhere, ih hothers]
    rfl

end Statements

/-! ## Calls -/

namespace Store

/-- What is done to a store to fill it. -/
inductive Call where
  | insert (q : Quad)
  | extend (quads : List Quad)
  /-- A text, read under a vocabulary. -/
  | load (v : Vocabulary) (text : String)

/-- The statements that a call brings to the store; a text that fails brings none. -/
def Call.offered : Call → List Quad
  | insert q => [q]
  | extend quads => quads
  | load v text => (Statements.parse v text).toOption.getD []

/-- The store after a call, and what the call reports: the number of new statements, or why its text
cannot be read. -/
def call (s : Store) : Call → Store × Except StatementError Nat
  | .insert q => ((s.insert q).1, .ok (if (s.insert q).2 then 1 else 0))
  | .extend quads => ((s.extend quads).1, .ok (s.extend quads).2)
  | .load v text =>
    match s.load v text with
    | .ok (s', added) => (s', .ok added)
    | .error e => (s, .error e)

/-- The store after calls one after the other, and their reports. -/
def run (s : Store) : List Call → Store × List (Except StatementError Nat)
  | [] => (s, [])
  | c :: rest =>
    let after := (s.call c).1.run rest
    (after.1, (s.call c).2 :: after.2)

/-- The number of new statements in a report. -/
def reported (report : Except StatementError Nat) : Nat := report.toOption.getD 0

/-- The store lists what was offered, each statement once, by the places at which the statements
stand first. -/
structure Records (s : Store) (offered : List Quad) : Prop where
  distinct : s.quads.Nodup
  mem_iff : ∀ q, q ∈ s.quads ↔ q ∈ offered
  ordered : s.quads.Pairwise fun a b => offered.idxOf a < offered.idxOf b

private theorem insert_quads (s : Store) (q : Quad) :
    (s.insert q).1.quads = if q ∈ s.quads then s.quads else s.quads ++ [q] := by
  unfold insert
  split <;> rfl

private theorem length_insert (s : Store) (q : Quad) :
    (s.insert q).1.quads.length = s.quads.length + if (s.insert q).2 then 1 else 0 := by
  unfold insert
  split <;> simp

theorem extend_cons (s : Store) (q : Quad) (rest : List Quad) :
    s.extend (q :: rest) = (((s.insert q).1.extend rest).1,
      if (s.insert q).2 then ((s.insert q).1.extend rest).2 + 1
      else ((s.insert q).1.extend rest).2) := rfl

private theorem length_extend (s : Store) (quads : List Quad) :
    (s.extend quads).1.quads.length = s.quads.length + (s.extend quads).2 := by
  induction quads generalizing s with
  | nil => rfl
  | cons q rest ih =>
    have hinsert := length_insert s q
    rw [extend_cons]
    simp only [ih, hinsert]
    split <;> omega

namespace Records

variable {s : Store} {offered : List Quad}

private theorem insert (h : s.Records offered) (q : Quad) :
    (s.insert q).1.Records (offered ++ [q]) := by
  have hplace : ∀ a ∈ s.quads, (offered ++ [q]).idxOf a = offered.idxOf a := fun a ha =>
    List.idxOf_append_of_mem ((h.mem_iff a).1 ha)
  have hordered : s.quads.Pairwise fun a b =>
      (offered ++ [q]).idxOf a < (offered ++ [q]).idxOf b := by
    refine h.ordered.imp_of_mem fun {a b} ha hb hab => ?_
    rwa [hplace a ha, hplace b hb]
  by_cases hq : q ∈ s.quads
  · have hsame : (s.insert q).1.quads = s.quads := by rw [insert_quads, if_pos hq]
    refine ⟨by rw [hsame]; exact h.distinct, fun a => ?_, by rwa [hsame]⟩
    rw [hsame, h.mem_iff, List.mem_append, List.mem_singleton]
    constructor
    · exact .inl
    · rintro (ha | rfl)
      · exact ha
      · exact (h.mem_iff a).1 hq
  · have hnew : (s.insert q).1.quads = s.quads ++ [q] := by rw [insert_quads, if_neg hq]
    have hout : q ∉ offered := fun hmem => hq ((h.mem_iff q).2 hmem)
    refine ⟨?_, fun a => ?_, ?_⟩
    · rw [hnew, List.nodup_append]
      refine ⟨h.distinct, List.pairwise_singleton _ q, fun a ha b hb => ?_⟩
      rintro rfl
      exact hq (List.mem_singleton.1 hb ▸ ha)
    · rw [hnew, List.mem_append, List.mem_append, h.mem_iff]
    · rw [hnew, List.pairwise_append]
      refine ⟨hordered, List.pairwise_singleton _ q, fun a ha b hb => ?_⟩
      obtain rfl := List.mem_singleton.1 hb
      have hlt := List.idxOf_lt_length_iff.2 ((h.mem_iff a).1 ha)
      rw [hplace a ha, List.idxOf_append_of_notMem hout]
      omega

private theorem extend (h : s.Records offered) (quads : List Quad) :
    (s.extend quads).1.Records (offered ++ quads) := by
  induction quads generalizing s offered with
  | nil => rwa [List.append_nil]
  | cons q rest ih =>
    rw [extend_cons, List.append_cons]
    exact ih (h.insert q)

end Records

theorem load_eq (s : Store) (v : Vocabulary) (text : String) :
    s.load v text = (Statements.parse v text).map s.extend := by
  unfold load
  cases Statements.parse v text <;> rfl

/-- One call: what it offers is recorded, and what it reports is what it added. -/
theorem Records.call {s : Store} {offered : List Quad} (h : s.Records offered) (c : Call) :
    (s.call c).1.Records (offered ++ c.offered) ∧
      (s.call c).1.quads.length = s.quads.length + reported (s.call c).2 := by
  cases c with
  | insert q => exact ⟨h.insert q, length_insert s q⟩
  | extend quads => exact ⟨h.extend quads, length_extend s quads⟩
  | load v text =>
    simp only [Store.call, Call.offered, load_eq]
    cases Statements.parse v text with
    | error e => exact ⟨by simpa [Except.toOption, Except.map] using h, rfl⟩
    | ok quads => exact ⟨h.extend quads, length_extend s quads⟩

private theorem Records.run {s : Store} {offered : List Quad} (h : s.Records offered)
    (calls : List Call) :
    (s.run calls).1.Records (offered ++ calls.flatMap Call.offered) ∧
      (s.run calls).1.quads.length = s.quads.length + ((s.run calls).2.map reported).sum := by
  induction calls generalizing s offered with
  | nil => exact ⟨by simpa [Store.run] using h, rfl⟩
  | cons c rest ih =>
    obtain ⟨hcall, hcount⟩ := h.call c
    obtain ⟨hrest, hsum⟩ := ih hcall
    rw [List.flatMap_cons, ← List.append_assoc]
    refine ⟨hrest, ?_⟩
    simp only [Store.run, List.map_cons, List.sum_cons, hsum, hcount]
    omega

private theorem run_append (s : Store) (before after : List Call) :
    s.run (before ++ after) = (((s.run before).1.run after).1,
      (s.run before).2 ++ ((s.run before).1.run after).2) := by
  induction before generalizing s with
  | nil => rfl
  | cons c rest ih => simp only [List.cons_append, run, ih]

private theorem length_reports (s : Store) (calls : List Call) :
    (s.run calls).2.length = calls.length := by
  induction calls generalizing s with
  | nil => rfl
  | cons c rest ih => simp only [run, List.length_cons, ih]

/-- A text that fails leaves the store as it is, and the line that it reports is the first faulty
one; it fails only if there is one. A text that does not fail offers what its lines state. -/
theorem call_load (s : Store) (v : Vocabulary) (text : String) :
    let lines := Text.lines text.toList
    ((∃ e, (s.call (.load v text)).2 = .error e) ↔ ∃ n, Statements.IsFaulty v lines n) ∧
    ((∀ n, ¬ Statements.IsFaulty v lines n) →
      (Call.load v text).offered = Statements.said v lines) ∧
    ∀ e, (s.call (.load v text)).2 = .error e → (Call.load v text).offered = [] ∧
      (s.call (.load v text)).1 = s ∧ Statements.IsFaulty v lines e.line ∧
        ∀ n, Statements.IsFaulty v lines n → e.line ≤ n := by
  intro lines
  simp only [Store.call, Call.offered, load_eq]
  cases hparse : Statements.parse v text with
  | error e =>
    obtain ⟨m, hline, hfaulty, hleast⟩ := Statements.isLeast_of_parseFrom hparse
    have hnumber : e.line = m + 1 := by omega
    refine ⟨⟨fun _ => ⟨m + 1, hfaulty⟩, fun _ => ⟨e, rfl⟩⟩,
      fun hnone => absurd hfaulty (hnone _), ?_⟩
    rintro e' ⟨⟩
    rw [hnumber]
    exact ⟨rfl, rfl, hfaulty, hleast⟩
  | ok quads =>
    refine ⟨⟨?_, ?_⟩, fun _ => Statements.eq_said_of_parseFrom hparse, ?_⟩
    · rintro ⟨e, ⟨⟩⟩
    · rintro ⟨n, hn⟩
      exact absurd hn (Statements.not_isFaulty_of_parseFrom hparse n)
    · rintro e ⟨⟩

/-- What calls do to an empty store. The statements are distinct and stand in the order in which
they first came in, and the reports add up to their number. A text brings what its lines state,
unless it has a faulty line; then, and only then, it fails, changes nothing and reports the first of
these lines. -/
theorem run_empty (maxRows : Nat) (calls : List Call) :
    let empty : Store := ⟨[], maxRows⟩
    let stored := (empty.run calls).1.quads
    let reports := (empty.run calls).2
    let offered := calls.flatMap Call.offered
    stored.Nodup ∧ (∀ q, q ∈ stored ↔ q ∈ offered) ∧
    stored.Pairwise (fun a b => offered.idxOf a < offered.idxOf b) ∧
    (reports.map reported).sum = stored.length ∧
    ∀ before v text after, calls = before ++ .load v text :: after →
      let lines := Text.lines text.toList
      let s := (empty.run before).1
      reports[before.length]? = some (s.call (.load v text)).2 ∧
      ((∃ e, (s.call (.load v text)).2 = .error e) ↔ ∃ n, Statements.IsFaulty v lines n) ∧
      ((∀ n, ¬ Statements.IsFaulty v lines n) →
        (Call.load v text).offered = Statements.said v lines) ∧
      ∀ e, (s.call (.load v text)).2 = .error e → (Call.load v text).offered = [] ∧
        (s.call (.load v text)).1.quads = s.quads ∧ Statements.IsFaulty v lines e.line ∧
          ∀ n, Statements.IsFaulty v lines n → e.line ≤ n := by
  intro empty stored reports offered
  have hstart : empty.Records [] := ⟨List.nodup_nil, fun q => Iff.rfl, List.Pairwise.nil⟩
  obtain ⟨hrecords, hcount⟩ := hstart.run calls
  refine ⟨hrecords.distinct, hrecords.mem_iff, hrecords.ordered, ?_, ?_⟩
  · rw [hcount]
    exact (Nat.zero_add _).symm
  · rintro before v text after rfl lines s
    obtain ⟨hfails, hsaid, hreport⟩ := call_load s v text
    refine ⟨?_, hfails, hsaid, fun e he => ?_⟩
    · have hlength := length_reports empty before
      simp only [reports, run_append, run]
      rw [List.getElem?_append_right (Nat.le_of_eq hlength), hlength, Nat.sub_self]
      rfl
    · obtain ⟨hnothing, hsame, hfaulty, hleast⟩ := hreport e he
      exact ⟨hnothing, congrArg Store.quads hsame, hfaulty, hleast⟩

/-- A text with a statement of its own that is repeated under a short name, a text that fails below
a statement, and that statement again. What the first text states comes from nowhere else. -/
theorem run_empty_failing_text :
    let v := Vocabulary.common
    let good := "<e/a> <p> <b> .\n@prefix e: <e/> .\n\n e:a <p> <b>."
    let bad := "@prefix e: <e/> .\n# idle\ne:c <p> e:d .\nf:c <p> e:d .\nf:"
    let known : Quad := ⟨⟨"e/a"⟩, ⟨"p"⟩, .iri ⟨"b"⟩, none⟩
    let new : Quad := ⟨⟨"e/c"⟩, ⟨"p"⟩, .iri ⟨"e/d"⟩, none⟩
    let empty : Store := ⟨[], 10⟩
    let calls : List Call := [.load v good, .load v bad, .extend [new]]
    Statements.said v (Text.lines good.toList) = [known, known] ∧
    (empty.run calls).1.quads = [known, new] ∧
    Statements.IsFaulty v (Text.lines bad.toList) 4 ∧
    ∀ n, Statements.IsFaulty v (Text.lines bad.toList) n → 4 ≤ n := by
  intro v good bad known new empty calls
  have hstored : (empty.run calls).1.quads = [known, new] := by decide +kernel
  have hgood : Statements.parse v good = .ok [known, known] := by decide +kernel
  have hline : ((empty.run [.load v good]).1.call (.load v bad)).2.mapError StatementError.line =
      .error 4 := by decide +kernel
  obtain ⟨-, -, -, -, hloads⟩ := run_empty 10 calls
  obtain ⟨-, -, hoffered, -⟩ := hloads [] v good [.load v bad, .extend [new]] rfl
  have hsaid : Statements.said v (Text.lines good.toList) = [known, known] := by
    rw [← hoffered (Statements.not_isFaulty_of_parseFrom hgood), Call.offered, hgood]
    rfl
  obtain ⟨-, -, -, hreport⟩ := hloads [.load v good] v bad [.extend [new]] rfl
  cases hcall : ((empty.run [.load v good]).1.call (.load v bad)).2 with
  | ok added =>
    rw [hcall] at hline
    cases hline
  | error e =>
    obtain ⟨-, -, hfaulty, hleast⟩ := hreport e hcall
    rw [hcall] at hline
    have hnumber : e.line = 4 := Except.error.inj hline
    rw [hnumber] at hfaulty hleast
    exact ⟨hsaid, hstored, hfaulty, hleast⟩

end Store

end GraphPath
