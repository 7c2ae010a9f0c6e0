import GraphPath.Proofs.Cap
import GraphPath.Proofs.CriteriaOrder
import GraphPath.Proofs.Faults
import GraphPath.Proofs.Hygiene
import GraphPath.Proofs.Naturality

/-!
# Names of variables

Settings name the variable of the resources and the stem of the other variables. Under other names
a session takes the same operations, fails with the same errors, or builds the same query up to the
names, and has the same resources for answers, in the same order. What the answers look at in a row
are the values of some variables, and these do not depend on what the variables are called.
-/

namespace GraphPath

open Emit Compile

/-! ## Answers of a renamed query -/

private theorem Row.restrict_eq_single (row : Row) (v : Variable) :
    row.restrict v = Row.single v (row.value? v) := by
  unfold Row.restrict
  cases row.value? v <;> rfl

private theorem eraseDups_map {α β : Type} [BEq α] [LawfulBEq α] [BEq β] [LawfulBEq β]
    {f : α → β} (hf : Function.Injective f) (l : List α) :
    (l.map f).eraseDups = l.eraseDups.map f := by
  induction hn : l.length using Nat.strong_induction_on generalizing l with
  | h n ih =>
    cases l with
    | nil => rfl
    | cons x rest =>
      have hlength := List.length_filter_le (fun y => !y == x) rest
      have hfilter : (rest.map f).filter (fun y => !y == f x) =
          (rest.filter fun y => !y == x).map f := by
        rw [List.filter_map]
        congr 2
        funext y
        rw [Bool.eq_iff_iff]
        simp [hf.eq_iff]
      rw [List.map_cons, List.eraseDups_cons, List.eraseDups_cons, hfilter, List.map_cons,
        ih _ (by rw [← hn, List.length_cons]; omega) _ rfl]

/-- The order of two lists of values: the first place where they differ decides. -/
def valuesOrder : List Direction → List (Option Node) → List (Option Node) → Ordering
  | d :: ds, x :: xs, y :: ys => (d.apply (valueOrder x y)).then (valuesOrder ds xs ys)
  | _, _, _ => .eq

private theorem Row.sortOrder_eq (keys : List OrderKey) (a b : Row) :
    Row.sortOrder keys a b = valuesOrder (keys.map OrderKey.direction)
      (keys.map fun k => a.value? k.target) (keys.map fun k => b.value? k.target) := by
  induction keys with
  | nil => rfl
  | cons key keys ih =>
    rw [Row.sortOrder, ih]
    rfl

def OrderKey.rename (ρ : Variable → Variable) (k : OrderKey) : OrderKey :=
  ⟨ρ k.target, k.direction⟩

namespace Query

def rename (ρ : Variable → Variable) (q : Query) : Query where
  projection := ρ q.projection
  graph := q.graph
  pattern := Element.renameAll ρ q.pattern
  orderBy := q.orderBy.map (OrderKey.rename ρ)
  limit := q.limit
  offset := q.offset
  distinct := q.distinct

/-- What the answers of a query depend on in a row: the value that is asked for, and those to order
by. -/
def outlook (q : Query) (row : Row) : Option Node × List (Option Node) :=
  (row.value? q.projection, q.orderBy.map fun k => row.value? k.target)

/-- The values among the answers, for rows of which this is what they depend on. -/
def listed (q : Query) (outlooks : List (Option Node × List (Option Node))) :
    List (Option Node) :=
  let sorted := Sorting.sort
    (fun x y => (valuesOrder (q.orderBy.map OrderKey.direction) x.2 y.2).isLT) outlooks
  let values := if q.distinct then (sorted.map Prod.fst).eraseDups else sorted.map Prod.fst
  let rest := values.drop (q.offset.getD 0)
  match q.limit with
  | some n => rest.take n
  | none => rest

private theorem map_outlook_sort (q : Query) (rows : List Row) :
    (Row.sort q.orderBy rows).map q.outlook = Sorting.sort
      (fun x y => (valuesOrder (q.orderBy.map OrderKey.direction) x.2 y.2).isLT)
      (rows.map q.outlook) := by
  have hless : (fun a b => (Row.sortOrder q.orderBy a b).isLT) = Function.onFun
      (fun x y : Option Node × List (Option Node) =>
        (valuesOrder (q.orderBy.map OrderKey.direction) x.2 y.2).isLT) q.outlook := by
    funext a b
    rw [Row.sortOrder_eq]
    rfl
  rw [Sorting.sort_map, Row.sort, hless]

private theorem answers_eq (q : Query) (rows : List Row) :
    q.answers rows = (q.listed (rows.map q.outlook)).map (Row.single q.projection) := by
  have hinjective : Function.Injective (Row.single q.projection) := fun x y h => by
    simpa [Row.value?_single] using congrArg (·.value? q.projection) h
  have hprojected : (Row.sort q.orderBy rows).map (·.restrict q.projection) =
      (((Row.sort q.orderBy rows).map q.outlook).map Prod.fst).map
        (Row.single q.projection) := by
    rw [List.map_map, List.map_map]
    exact List.map_congr_left fun row _ => row.restrict_eq_single q.projection
  rw [map_outlook_sort] at hprojected
  have hlisted : (if q.distinct then
        ((Row.sort q.orderBy rows).map (·.restrict q.projection)).eraseDups
      else (Row.sort q.orderBy rows).map (·.restrict q.projection)) = List.map
        (Row.single q.projection) (if q.distinct then ((Sorting.sort
          (fun x y => (valuesOrder (q.orderBy.map OrderKey.direction) x.2 y.2).isLT)
          (rows.map q.outlook)).map Prod.fst).eraseDups else (Sorting.sort
          (fun x y => (valuesOrder (q.orderBy.map OrderKey.direction) x.2 y.2).isLT)
          (rows.map q.outlook)).map Prod.fst) := by
    rw [hprojected]
    split
    · exact eraseDups_map hinjective _
    · rfl
  simp only [answers, listed, hlisted]
  cases q.limit with
  | none => exact (List.map_drop ..).symm
  | some n => rw [← List.map_drop, List.map_take]

/-- The resources among the answers of a query, in order. -/
def resources (q : Query) (answers : List Row) : List Iri :=
  answers.filterMap fun row => (row.value? q.projection).bind Node.iri?

private theorem resources_answers (q : Query) (rows : List Row) :
    q.resources (q.answers rows) =
      (q.listed (rows.map q.outlook)).filterMap (·.bind Node.iri?) := by
  rw [resources, answers_eq, List.filterMap_map]
  congr 1
  funext value
  simp [Row.value?_single]

variable {ρ : Variable → Variable} {V : Set Variable}

private theorem outlook_rename {q : Query} (hq : ∀ v ∈ q.vars, v ∈ V) {row row' : Row}
    (h : Row.Mirrors ρ V row row') : (q.rename ρ).outlook row' = q.outlook row := by
  have hprojection : q.projection ∈ V := hq _ (List.mem_cons_self ..)
  have horder : ∀ k ∈ q.orderBy, k.target ∈ V := fun k hk =>
    hq _ (.tail _ (List.mem_append_right _ (List.mem_map_of_mem hk)))
  simp only [outlook, rename, List.map_map, h _ hprojection]
  congr 1
  exact List.map_congr_left fun k hk => h _ (horder k hk)

/-- A renamed query stays within the same caps, and has the same resources for answers. -/
theorem eval_rename (hρ : Set.InjOn ρ V) {q : Query} (hq : ∀ v ∈ q.vars, v ∈ V) (D : List Quad)
    (cap : Nat) :
    ((q.rename ρ).eval D cap).map (q.rename ρ).resources = (q.eval D cap).map q.resources := by
  have hpattern : ∀ v ∈ q.pattern.vars, v ∈ V := fun v hv =>
    hq v (.tail _ (List.mem_append_left _ hv))
  have hpeak : (q.rename ρ).peak D = q.peak D :=
    Group.peak_rename hρ (q.visible D) q.pattern hpattern (.cons (.refl_empty ρ V) .nil)
  have hfound := Group.found_rename hρ (q.visible D) q.pattern hpattern (.refl_empty ρ V)
  have houtlooks : List.Forall₂ Eq
      ((Group.found (q.visible D) q.pattern .empty).map q.outlook)
      ((Group.found (q.visible D) (q.rename ρ).pattern .empty).map (q.rename ρ).outlook) :=
    List.forall₂_map_left_iff.2 (List.forall₂_map_right_iff.2
      (hfound.imp fun _ _ hrow => (outlook_rename hq hrow).symm))
  rw [List.forall₂_eq_eq_eq] at houtlooks
  have hlisted (outlooks : List (Option Node × List (Option Node))) :
      (q.rename ρ).listed outlooks = q.listed outlooks := by
    simp only [listed, rename, List.map_map]
    rfl
  rw [eval_eq, eval_eq, hpeak]
  split
  · refine congrArg Except.ok ?_
    rw [resources_answers, resources_answers, hlisted, houtlooks]
    rfl
  · rfl

end Query

/-! ## Sessions under other names -/

namespace Session

/-- The error with which the session fails to build, if it does. -/
def fault? (s : Session) : Option CompileError :=
  (firstFault (s.criteria.map fun c => c.selector.fault? s.settings.recursion)).or
    (firstFault (s.orderBy.map fun key => key.1.fault? s.settings.recursion))

private theorem faultIs_criterion (limits : RecursionLimits) (c : Criterion) (root : Variable) :
    (c.emit .builtin limits root).FaultIs (c.selector.fault? limits) fun _ => True := by
  refine (faultIs_selector limits c.selector root).bind_ok fun value _ => ?_
  cases c.constraint with
  | none => exact faultIs_done trivial
  | some constraint => exact faultIs_write _

private theorem faultIs_emitOrder {s : Session} (hregistry : s.registry = .builtin)
    (key : Selector × Direction) :
    (s.emitOrder key).FaultIs (key.1.fault? s.settings.recursion) fun _ => True := by
  unfold emitOrder
  rw [hregistry]
  refine (faultIs_selector s.settings.recursion key.1 s.root).captured.bind_ok ?_
  rintro ⟨target, inner⟩ -
  by_cases hinner : inner.isEmpty = true
  · simp only [hinner, Bool.not_true, Bool.false_eq_true, if_false]
    exact faultIs_done trivial
  · simp only [hinner, Bool.not_false, if_true]
    exact (faultIs_write _).bind fun _ _ => faultIs_done trivial

private theorem faultIs_emit {s : Session} (hregistry : s.registry = .builtin) :
    s.emit.FaultIs s.fault? fun _ => True := by
  have htypes : (inOrder (s.types.map (emitType s.root))).FaultIs none fun _ => True :=
    faultIs_of_ok fun a => by
      obtain ⟨units, hunits⟩ := inOrder_emitType s.root s.types a
      exact ⟨_, hunits, trivial⟩
  have hcriteria := faultIs_inOrder (List.forall₂_map_left_iff.2 (List.forall₂_map_right_iff.2
    (List.forall₂_same.2 fun c (_ : c ∈ s.criteria) =>
      faultIs_criterion s.settings.recursion c s.root)))
  have horders := faultIs_inOrder (List.forall₂_map_left_iff.2 (List.forall₂_map_right_iff.2
    (List.forall₂_same.2 fun key (_ : key ∈ s.orderBy) => faultIs_emitOrder hregistry key)))
  rw [← hregistry] at hcriteria
  exact htypes.bind fun _ _ => hcriteria.bind fun _ _ => horders

/-- The session with other names for its variables. -/
def named (s : Session) (root stem : String) : Session :=
  { s with settings := { s.settings with resultVariable := root, variableStem := stem } }

variable {ρ : Variable → Variable} {V : Set Variable}

private theorem mimics_emitOrder (hρ : Set.InjOn ρ V) {s : Session}
    (hregistry : s.registry = .builtin) {root : String} (stem : String)
    (hroot : Variable.Renamed ρ V s.root ⟨root⟩) (key : Selector × Direction) :
    Mimics ρ V (fun k k' => k' = k.rename ρ) (s.emitOrder key)
      ((s.named root stem).emitOrder key) := by
  have hselector := mimics_selector hρ s.settings.recursion key.1 hroot
  unfold emitOrder
  rw [show (s.named root stem).registry = .builtin from hregistry, hregistry]
  refine hselector.captured.bind ?_
  rintro ⟨target, inner⟩ ⟨target', inner'⟩ ⟨htarget, rfl⟩
  have hkey : (⟨target', key.2⟩ : OrderKey) = OrderKey.rename ρ ⟨target, key.2⟩ := by
    rw [OrderKey.rename, ← htarget.2]
  cases inner with
  | nil => exact mimics_done hkey
  | cons e rest => exact (mimics_write (.optional (e :: rest))).bind fun _ _ _ => mimics_done hkey

private theorem mimics_emit (hρ : Set.InjOn ρ V) {s : Session} (hregistry : s.registry = .builtin)
    {root : String} (stem : String) (hroot : Variable.Renamed ρ V s.root ⟨root⟩) :
    Mimics ρ V (fun keys keys' => keys' = keys.map (OrderKey.rename ρ)) s.emit
      (s.named root stem).emit := by
  have hregistry' : (s.named root stem).registry = .builtin := hregistry
  have htype (t : Iri) : Mimics ρ V (fun _ _ => True) (emitType s.root t) (emitType ⟨root⟩ t) := by
    rw [hroot.2]
    exact mimics_write _
  have htypes := mimics_inOrder (List.forall₂_map_left_iff.2 (List.forall₂_map_right_iff.2
    (List.forall₂_same.2 fun t (_ : t ∈ s.types) => htype t)))
  have hcriteria := mimics_inOrder (List.forall₂_map_left_iff.2 (List.forall₂_map_right_iff.2
    (List.forall₂_same.2 fun c (_ : c ∈ s.criteria) =>
      mimics_criterion hρ s.settings.recursion c hroot)))
  have horders := mimics_inOrder (List.forall₂_map_left_iff.2 (List.forall₂_map_right_iff.2
    (List.forall₂_same.2 fun key (_ : key ∈ s.orderBy) =>
      mimics_emitOrder hρ hregistry stem hroot key)))
  unfold emit
  rw [hregistry, hregistry']
  refine htypes.bind fun _ _ _ => hcriteria.bind fun _ _ _ => ?_
  intro a b em htracks hem
  obtain ⟨em', hem', hrenamed⟩ := horders a b em htracks hem
  have hkeys := List.forall₂_map_left_iff.2 (hrenamed.value.imp fun _ _ => Eq.symm)
  rw [List.forall₂_eq_eq_eq] at hkeys
  exact ⟨em', hem', hkeys.symm, hrenamed.elements, hrenamed.allocator⟩

/-- Every variable of the query of a session is the one of the resources, or was taken for it. -/
theorem vars_of_build {s : Session} (hregistry : s.registry = .builtin) {q : Query}
    (hbuild : s.build = .ok q) {v : Variable} (hv : v ∈ q.vars) :
    v = s.root ∨ (Allocator.ofSettings s.settings).Pending v := by
  obtain ⟨em, hem, hq⟩ := exists_of_bind_ok hbuild
  cases hq
  have hroot : ∀ v, v = s.root → ¬ (Allocator.ofSettings s.settings).Pending v := by
    rintro v rfl
    exact Allocator.root_not_pending (.ofSettings s.settings)
  have hplaced := neat_emit hregistry _ em hroot hem
  have hspent : v = s.root ∨ (Allocator.ofSettings s.settings).Spent em.allocator v := by
    rcases List.mem_cons.1 hv with rfl | hv
    · exact .inl rfl
    · rcases List.mem_append.1 hv with hv | hv
      · exact hplaced.written v hv
      · exact hplaced.valued v (by simpa [eq_comm] using hv)
  exact hspent.imp_right And.left

/-- The renaming of the variables of a session to those it has under other names. -/
noncomputable def translation (s : Session) (root stem : String) : Variable → Variable :=
  (Allocator.ofSettings s.settings).relabel ⟨root⟩ (.ofSettings (s.named root stem).settings)

private theorem injOn_translation (s : Session) (root stem : String) :
    Set.InjOn (s.translation root stem) ((Allocator.ofSettings s.settings).scope s.root) :=
  Allocator.injOn_relabel (Allocator.root_not_pending (.ofSettings s.settings))
    (Allocator.root_not_pending (.ofSettings (s.named root stem).settings))

/-- Under other names a session fails to build with the same error, or builds the renamed query. -/
theorem build_named {s : Session} (hregistry : s.registry = .builtin) (root stem : String) :
    (s.named root stem).build = s.build.map (Query.rename (s.translation root stem)) := by
  have hregistry' : (s.named root stem).registry = .builtin := hregistry
  have hfault : (s.named root stem).fault? = s.fault? := rfl
  cases hs : s.fault? with
  | some e =>
    have hemit := (faultIs_emit hregistry).fails (.ofSettings s.settings) e hs
    have hemit' := (faultIs_emit hregistry').fails (.ofSettings (s.named root stem).settings) e
      (hfault.trans hs)
    rw [build, build, hemit, hemit']
    rfl
  | none =>
    obtain ⟨em, hem, -⟩ := (faultIs_emit hregistry).succeeds (.ofSettings s.settings) hs
    obtain ⟨em', hem', hrenamed⟩ := mimics_emit (s.injOn_translation root stem) hregistry stem
      (Allocator.renamed_context (Allocator.root_not_pending (.ofSettings s.settings))) _ _ em
      Allocator.tracks_relabel hem
    have hroot : s.translation root stem s.root = ⟨root⟩ :=
      Allocator.relabel_context (Allocator.root_not_pending (.ofSettings s.settings))
    rw [build, build, hem, hem']
    simp only [bind, Except.bind, pure, Except.pure, Except.map, Query.rename, hrenamed.elements,
      hrenamed.value, hroot]
    rfl

private theorem execute_eq (s : Session) (endpoint : Endpoint) :
    s.execute endpoint = (s.build.mapError SessionError.compile) >>= fun q =>
      ((endpoint q).map q.resources).mapError SessionError.execution := by
  rw [execute, select, build]
  cases s.emit (.ofSettings s.settings) with
  | error e => rfl
  | ok em =>
    simp only [bind, Except.bind, pure, Except.pure, Except.mapError]
    cases endpoint _ <;> rfl

/-- Under other names a session has the same resources for answers, in the same order. -/
theorem execute_named {s : Session} (hregistry : s.registry = .builtin) (root stem : String)
    (store : Store) : (s.named root stem).execute store.select = s.execute store.select := by
  rw [execute_eq, execute_eq, build_named hregistry]
  cases hbuild : s.build with
  | error e => rfl
  | ok q =>
    have hvars : ∀ v ∈ q.vars, v ∈ (Allocator.ofSettings s.settings).scope s.root :=
      fun v hv => vars_of_build hregistry hbuild hv
    exact congrArg (Except.mapError SessionError.execution)
      (Query.eval_rename (s.injOn_translation root stem) hvars store.quads store.maxRows)

/-! ## Operations -/

/-- What is asked of a session that has been started. -/
inductive Operation where
  | declare (short ns : String)
  | restrictType (type : Iri)
  | addCriterion (c : Criterion)
  | addPath (path : String) (constraint : Option Constraint)
  | addOrder (path : String) (direction : Direction)
  | limit (n : Nat)
  | offset (n : Nat)

/-- The session after an operation. A path that cannot be read is refused. -/
def Operation.apply (s : Session) : Operation → Except ParseError Session
  | .declare short ns => .ok (s.declare short ns)
  | .restrictType type => .ok (s.restrictType type)
  | .addCriterion c => .ok (s.addCriterion c)
  | .addPath path constraint => s.addPath path constraint
  | .addOrder path direction => s.addOrder path direction
  | .limit n => .ok { s with limit := some n }
  | .offset n => .ok { s with offset := some n }

/-- The session after some operations, and for each of them why it was refused, if it was. A refused
operation leaves the session as it was. -/
def perform (s : Session) : List Operation → Session × List (Option ParseError)
  | [] => (s, [])
  | op :: rest =>
    match op.apply s with
    | .ok next => ((next.perform rest).1, none :: (next.perform rest).2)
    | .error e => ((s.perform rest).1, some e :: (s.perform rest).2)

private theorem Operation.apply_named (s : Session) (root stem : String) (op : Operation) :
    op.apply (s.named root stem) = (op.apply s).map fun next => next.named root stem := by
  have hvocabulary : (s.named root stem).vocabulary = s.vocabulary := rfl
  cases op with
  | addPath path constraint =>
    simp only [Operation.apply, Session.addPath, hvocabulary]
    cases Selector.parse s.vocabulary path <;> rfl
  | addOrder path direction =>
    simp only [Operation.apply, Session.addOrder, hvocabulary]
    cases Selector.parse s.vocabulary path <;> rfl
  | _ => rfl

private theorem perform_named (s : Session) (root stem : String) (ops : List Operation) :
    (s.named root stem).perform ops =
      ((s.perform ops).1.named root stem, (s.perform ops).2) := by
  induction ops generalizing s with
  | nil => rfl
  | cons op rest ih =>
    rw [perform, perform, Operation.apply_named]
    cases op.apply s with
    | error e => simp only [Except.map, ih]
    | ok next => simp only [Except.map, ih]

private theorem Operation.apply_keeps {s next : Session} {op : Operation}
    (h : op.apply s = .ok next) :
    next.registry = s.registry ∧ next.settings = s.settings := by
  cases op with
  | addPath path constraint =>
    obtain ⟨selector, -, hnext⟩ := exists_of_bind_ok h
    cases hnext
    exact ⟨rfl, rfl⟩
  | addOrder path direction =>
    obtain ⟨selector, -, hnext⟩ := exists_of_bind_ok h
    cases hnext
    exact ⟨rfl, rfl⟩
  | _ =>
    cases h
    exact ⟨rfl, rfl⟩

private theorem perform_keeps (s : Session) (ops : List Operation) :
    (s.perform ops).1.registry = s.registry ∧ (s.perform ops).1.settings = s.settings := by
  induction ops generalizing s with
  | nil => exact ⟨rfl, rfl⟩
  | cons op rest ih =>
    rw [perform]
    cases hop : op.apply s with
    | error e => exact ih s
    | ok next =>
      obtain ⟨hregistry, hsettings⟩ := Operation.apply_keeps hop
      exact ⟨(ih next).1.trans hregistry, (ih next).2.trans hsettings⟩

/-- The names of variables make no difference. Under settings that differ only in them, the same
operations are refused, and the sessions fail to build with the same error or build queries that are
equal up to the renaming of root to root and of each fresh variable to the one that is given in its
turn. Over every store they have the same error or the same resources for answers. -/
theorem naming_irrelevant (settings : Settings) (root stem : String) (graph : Option Iri)
    (ops : List Operation) (store : Store) :
    let settings' := { settings with resultVariable := root, variableStem := stem }
    let s := (start .builtin settings graph).perform ops
    let s' := (start .builtin settings' graph).perform ops
    s'.2 = s.2 ∧
    (∃ ρ : Variable → Variable, ρ s.1.root = s'.1.root ∧
      (∀ i, ρ ((Allocator.ofSettings settings).nth i) = (Allocator.ofSettings settings').nth i) ∧
      (∀ q, s.1.build = .ok q →
        ∀ v ∈ q.vars, v = s.1.root ∨ ∃ i, v = (Allocator.ofSettings settings).nth i) ∧
      s'.1.build = s.1.build.map (Query.rename ρ)) ∧
    s'.1.execute store.select = s.1.execute store.select := by
  intro settings' s s'
  have hs' : s' = (s.1.named root stem, s.2) :=
    perform_named (start .builtin settings graph) root stem ops
  obtain ⟨hregistry, hsettings⟩ := perform_keeps (start .builtin settings graph) ops
  change s.1.registry = .builtin at hregistry
  change s.1.settings = settings at hsettings
  rw [hs']
  refine ⟨rfl, ⟨s.1.translation root stem, ?_, ?_, ?_, build_named hregistry root stem⟩,
    execute_named hregistry root stem store⟩
  · exact Allocator.relabel_context (Allocator.root_not_pending (.ofSettings s.1.settings))
  · intro i
    rw [translation, hsettings, Allocator.relabel_nth, named, hsettings]
  · intro q hq v hv
    have hvar := vars_of_build hregistry hq hv
    rwa [hsettings] at hvar

end Session

end GraphPath
