import AsmServer.Proofs.Registry.Naming
import Mathlib.Data.List.Chain

/-!
# What flattening yields

A route is a chain of edges along files that have texts. The walk from the entry file meets
its routes one after the other, each before those that extend it and those that extend an
earlier edge of the same file before those that extend a later one. So the include map has
the keys of the routes, and under each key the text of the first route with this key.

The walk fails only where an edge leads back to a file on the way, so a failure names a
cycle. Conversely a walk that succeeds has followed every edge from every file that it came
to, and found none that leads back; a file without a text has no edges, so that nothing is
missed by leaving it out. Hence the walk fails exactly if the entry file reaches a cycle, and
if there is none, no route is longer than there are files.
-/

namespace AsmServer

/-- A fold fails at some element. -/
theorem exists_of_foldlM_error {α β ε : Type} {act : β → α → Except ε β} {elements : List α}
    {b : β} {error : ε} (h : elements.foldlM act b = .error error) :
    ∃ a ∈ elements, ∃ between, act between a = .error error := by
  induction elements generalizing b with
  | nil => cases h
  | cons a rest ih =>
    rw [List.foldlM_cons] at h
    cases first : act b a with
    | error _ =>
      rw [first] at h
      cases h
      exact ⟨a, List.mem_cons_self, b, first⟩
    | ok next =>
      rw [first] at h
      obtain ⟨later, member, failed⟩ := ih h
      exact ⟨later, List.mem_cons_of_mem _ member, failed⟩

/-- A fold that does not fail passes every element. -/
theorem forall_of_foldlM_ok {α β ε : Type} {act : β → α → Except ε β} {elements : List α}
    {b b' : β} (h : elements.foldlM act b = .ok b') :
    ∀ a ∈ elements, ∃ between after, act between a = .ok after := by
  induction elements generalizing b with
  | nil => simp
  | cons a rest ih =>
    rw [List.foldlM_cons] at h
    cases first : act b a with
    | error _ =>
      rw [first] at h
      cases h
    | ok next =>
      rw [first] at h
      exact List.forall_mem_cons.mpr ⟨⟨b, next, first⟩, ih h⟩

namespace Registry

variable {r : Registry} {u v entry : Uri} {f : TrackedFile} {depth : Nat} {dir key : Text}
  {stack : List Uri} {includes includes' : Assembly.Includes} {edge : Dependency}
  {path path' : List Dependency}

/-! ## Routes -/

/-- A chain of edges from a file to another, where all files but the first have to have a
text. -/
inductive Route (r : Registry) : Uri → List Dependency → TrackedFile → Prop where
  | arrive {u : Uri} {edge : Dependency} {f : TrackedFile} (listed : edge ∈ r.outgoing u)
      (found : r.find? edge.uri = some f) (loaded : f.contents?.isSome) : Route r u [edge] f
  | pass {u : Uri} {edge : Dependency} {g f : TrackedFile} {path : List Dependency}
      (listed : edge ∈ r.outgoing u) (found : r.find? edge.uri = some g)
      (loaded : g.contents?.isSome) (onward : Route r edge.uri path f) :
      Route r u (edge :: path) f

theorem Route.ne_nil (h : r.Route u path f) : path ≠ [] := by
  cases h <;> exact List.cons_ne_nil _ _


/-- The key of the file at the end of a route from a file with this key. -/
def keyAlong (key : Text) (path : List Dependency) : Text :=
  path.foldl (fun key edge => includeKey (keyDir key) edge.name) key

@[simp] theorem keyAlong_nil : keyAlong key [] = key := rfl

@[simp] theorem keyAlong_cons :
    keyAlong key (edge :: path) = keyAlong (includeKey (keyDir key) edge.name) path := rfl

/-- One route from a file comes before another, in depth-first preorder. -/
inductive Before (r : Registry) : Uri → List Dependency → List Dependency → Prop where
  /-- A route comes before those that extend it. -/
  | extended (u : Uri) (edge : Dependency) (path : List Dependency) : Before r u [] (edge :: path)
  /-- The first edges decide, by their order in the file. -/
  | earlier {u : Uri} {edge edge' : Dependency} (order : [edge, edge'].Sublist (r.outgoing u))
      (path path' : List Dependency) : Before r u (edge :: path) (edge' :: path')
  | onward {u : Uri} {edge : Dependency} {path path' : List Dependency}
      (later : Before r edge.uri path path') : Before r u (edge :: path) (edge :: path')

/-- The routes along one edge: that of the edge alone, then those that go on. -/
def routesAlong (r : Registry) (onward : Uri → List (List Dependency × TrackedFile))
    (edge : Dependency) : List (List Dependency × TrackedFile) :=
  match r.find? edge.uri with
  | none => []
  | some f =>
    if f.contents?.isSome then
      ([edge], f) :: (onward edge.uri).map fun (path, g) => (edge :: path, g)
    else []

/-- The routes from a file of at most `depth` edges, in the order of the walk. -/
def routes (r : Registry) : Nat → Uri → List (List Dependency × TrackedFile)
  | 0, _ => []
  | depth + 1, u => (r.outgoing u).flatMap (r.routesAlong (r.routes depth))

theorem mem_routesAlong {onward : Uri → List (List Dependency × TrackedFile)} :
    (path, f) ∈ r.routesAlong onward edge ↔
      ∃ g, r.find? edge.uri = some g ∧ g.contents?.isSome ∧
        (path = [edge] ∧ f = g ∨ ∃ rest, (rest, f) ∈ onward edge.uri ∧ path = edge :: rest) := by
  unfold routesAlong
  cases found : r.find? edge.uri with
  | none => simp
  | some g =>
    by_cases loaded : g.contents?.isSome
    · simp only [loaded, if_true, List.mem_cons, Prod.mk.injEq, List.mem_map, Prod.exists,
        Option.some.injEq]
      constructor
      · rintro (⟨rfl, rfl⟩ | ⟨rest, g', onward, rfl, rfl⟩)
        · exact ⟨_, rfl, loaded, .inl ⟨rfl, rfl⟩⟩
        · exact ⟨_, rfl, loaded, .inr ⟨_, onward, rfl⟩⟩
      · rintro ⟨g', rfl, -, ⟨rfl, rfl⟩ | ⟨rest, onward, rfl⟩⟩
        · exact .inl ⟨rfl, rfl⟩
        · exact .inr ⟨_, _, onward, rfl, rfl⟩
    · simp [loaded]

/-- The walk meets exactly the routes that are no longer than it is deep. -/
theorem mem_routes : (path, f) ∈ r.routes depth u ↔ r.Route u path f ∧ path.length ≤ depth := by
  induction depth generalizing u path with
  | zero =>
    constructor
    · intro h
      cases h
    · rintro ⟨route, short⟩
      cases route <;> simp at short
  | succ depth ih =>
    rw [routes, List.mem_flatMap]
    constructor
    · rintro ⟨edge, listed, along⟩
      obtain ⟨g, found, loaded, ⟨rfl, rfl⟩ | ⟨rest, onward, rfl⟩⟩ := mem_routesAlong.mp along
      · exact ⟨.arrive listed found loaded, by simp⟩
      · obtain ⟨route, short⟩ := ih.mp onward
        exact ⟨.pass listed found loaded route, by simpa using short⟩
    · rintro ⟨route, short⟩
      cases route with
      | arrive listed found loaded =>
        exact ⟨_, listed, mem_routesAlong.mpr ⟨_, found, loaded, .inl ⟨rfl, rfl⟩⟩⟩
      | pass listed found loaded onward =>
        refine ⟨_, listed, mem_routesAlong.mpr
          ⟨_, found, loaded, .inr ⟨_, ih.mpr ⟨onward, ?_⟩, rfl⟩⟩⟩
        simpa using short

/-- What the walk hands over are the files at the ends of its routes, by their keys. -/
theorem handedBelow_eq_routes :
    r.handedBelow depth u (keyDir key) =
      (r.routes depth u).map fun (path, f) => (keyAlong key path, f) := by
  induction depth generalizing u key with
  | zero => rfl
  | succ depth ih =>
    rw [handedBelow, routes, List.map_flatMap]
    congr 1
    funext edge
    unfold handedAlong routesAlong
    cases r.find? edge.uri with
    | none => rfl
    | some f =>
      by_cases loaded : f.contents?.isSome
      · simp [loaded, ih]
      · simp [loaded]

/-- The walk meets its routes in depth-first preorder. -/
theorem routes_pairwise : (r.routes depth u).Pairwise fun a b => r.Before u a.1 b.1 := by
  induction depth generalizing u with
  | zero => exact .nil
  | succ depth ih =>
    rw [routes, List.pairwise_flatMap]
    constructor
    · intro edge _
      unfold routesAlong
      split
      · exact .nil
      split_ifs
      · refine List.pairwise_cons.mpr ⟨?_, List.pairwise_map.mpr (ih.imp .onward)⟩
        rintro ⟨path, f⟩ listed
        obtain ⟨⟨rest, g⟩, onward, same⟩ := List.mem_map.mp listed
        obtain ⟨rfl, rfl⟩ := Prod.mk.inj same
        obtain ⟨next, later, rfl⟩ := List.exists_cons_of_ne_nil (mem_routes.mp onward).1.ne_nil
        exact .onward (.extended ..)
      · exact .nil
    · refine List.pairwise_iff_forall_sublist.mpr fun order => ?_
      rintro ⟨path, f⟩ first ⟨path', f'⟩ second
      obtain ⟨-, -, -, ⟨rfl, -⟩ | ⟨rest, -, rfl⟩⟩ := mem_routesAlong.mp first <;>
        obtain ⟨-, -, -, ⟨rfl, -⟩ | ⟨rest', -, rfl⟩⟩ := mem_routesAlong.mp second <;>
        exact .earlier order _ _

/-- The edges of a file are all different. -/
theorem outgoing_nodup (consistent : r.Consistent entry) : (r.outgoing u).Nodup := by
  unfold outgoing
  cases found : r.find? u with
  | none => exact List.nodup_nil
  | some f => exact (consistent.files f (mem_of_find? found)).distinct.of_map _

/-- Of two routes at most one comes before the other. -/
theorem Before.asymm (consistent : r.Consistent entry) (h : r.Before u path path') :
    ¬ r.Before u path' path := by
  have twice {u : Uri} {a b : Dependency} (order : [a, b].Sublist (r.outgoing u)) :
      ¬ [b, a].Sublist (r.outgoing u) := by
    have distinct := outgoing_nodup (u := u) consistent
    generalize r.outgoing u = edges at order distinct
    induction edges with
    | nil => simp at order
    | cons c rest ih => grind
  intro back
  induction h with
  | extended => cases back
  | earlier order =>
    cases back with
    | earlier order' => exact twice order order'
    | onward => exact twice order order
  | onward later ih =>
    cases back with
    | earlier order => exact twice order order
    | onward earlier => exact ih earlier

/-! ## Cycles -/

/-- The entry file reaches a file that includes itself, directly or through others. -/
def Cyclic (r : Registry) : Prop := ∃ u, r.Reachable u ∧ Relation.TransGen r.Links u u

/-- The files of `chain` go once round a cycle that the entry file reaches, and the include
at `range` in `file` closes it. -/
structure Closes (r : Registry) (chain : List Uri) (file : Uri) (range : Range) : Prop where
  linked : chain.IsChain r.Links
  reached : ∀ u ∈ chain, r.Reachable u
  round : ∃ way, ∃ edge ∈ r.outgoing file, chain = way ++ [edge.uri] ∧
    way.head? = some edge.uri ∧ way.getLast? = some file ∧ edge.range = range

theorem links_iff_outgoing : r.Links u v ↔ ∃ edge ∈ r.outgoing u, edge.uri = v := by
  unfold Links targets outgoing
  cases r.find? u <;> simp [TrackedFile.targets]

theorem Closes.cyclic {chain : List Uri} {file : Uri} {range : Range}
    (h : r.Closes chain file range) : r.Cyclic := by
  obtain ⟨way, edge, listed, rfl, first, last, -⟩ := h.round
  obtain ⟨rest, rfl⟩ := List.head?_eq_some_iff.mp first
  have linked := (List.isChain_append.mp h.linked).1
  have around : Relation.ReflTransGen r.Links edge.uri file := by
    refine List.relationReflTransGen_of_exists_isChain_cons rest linked ?_
    exact Option.some.inj ((List.getLast?_eq_some_getLast _).symm.trans last)
  refine ⟨edge.uri, h.reached _ (by simp), ?_⟩
  exact Relation.TransGen.tail' around (links_iff_outgoing.mpr ⟨edge, listed, rfl⟩)

/-- An edge back to a file on the way closes a cycle, from this file on. -/
theorem closes_of_mem (linked : stack.IsChain r.Links) (reached : ∀ v ∈ stack, r.Reachable v)
    (last : stack.getLast? = some u) (listed : edge ∈ r.outgoing u) (back : edge.uri ∈ stack) :
    r.Closes (stack.dropWhile (· ≠ edge.uri) ++ [edge.uri]) u edge.range := by
  obtain ⟨before, after, rfl, fresh⟩ := List.eq_append_cons_of_mem back
  have round : (before ++ edge.uri :: after).dropWhile (· ≠ edge.uri) = edge.uri :: after := by
    rw [List.dropWhile_append_of_pos
      (by simpa using fun v member => ne_of_mem_of_not_mem member fresh)]
    simp
  have ends : (edge.uri :: after).getLast? = some u := by simpa using last
  rw [round]
  refine ⟨List.isChain_append.mpr ⟨(List.isChain_append.mp linked).2.1, by simp, ?_⟩, ?_,
    edge.uri :: after, edge, listed, rfl, rfl, ends, rfl⟩
  · intro x final y first
    obtain rfl : u = x := Option.some.inj (ends.symm.trans final)
    obtain rfl : edge.uri = y := by simpa using first
    exact links_iff_outgoing.mpr ⟨edge, listed, rfl⟩
  · intro v member
    refine reached v (List.mem_append_right _ ?_)
    simpa [or_comm] using member

/-- A walk fails only where an edge leads back to a file on the way. -/
theorem closes_of_walk {error : ProjectError} (linked : stack.IsChain r.Links)
    (reached : ∀ v ∈ stack, r.Reachable v) (last : stack.getLast? = some u)
    (failed : r.walk depth u dir stack includes = .error error) :
    ∃ chain file range, error = .includeCycle chain file range ∧ r.Closes chain file range := by
  induction depth generalizing u dir stack includes with
  | zero => cases failed
  | succ depth ih =>
    rw [walk_succ] at failed
    obtain ⟨edge, listed, between, followed⟩ := exists_of_foldlM_error failed
    have link : r.Links u edge.uri := links_iff_outgoing.mpr ⟨edge, listed, rfl⟩
    have on : r.Reachable edge.uri := (reached u (List.mem_of_getLast? last)).tail link
    unfold followEdge at followed
    split_ifs at followed with back
    · cases followed
      exact ⟨_, _, _, rfl, closes_of_mem linked reached last listed back⟩
    · split at followed
      · cases followed
      · refine ih ?_ ?_ (by simp) followed
        · refine List.isChain_append.mpr ⟨linked, by simp, ?_⟩
          intro x final y first
          obtain rfl : u = x := Option.some.inj (last.symm.trans final)
          obtain rfl : edge.uri = y := by simpa using first
          exact link
        · simpa [or_imp, forall_and] using ⟨reached, on⟩

/-! ## Walks that succeed -/

/-- From the file at the end of `stack`, walks of any depth succeed. -/
def Succeeds (r : Registry) (u : Uri) (stack : List Uri) : Prop :=
  ∀ depth, ∃ deeper ≥ depth, ∃ dir includes includes',
    r.walk deeper u dir stack includes = .ok includes'

/-- A walk that succeeds has met no edge back and succeeds below every file with a text. -/
theorem Succeeds.next (h : r.Succeeds u stack) (listed : edge ∈ r.outgoing u) :
    edge.uri ∉ stack ∧ ∀ f, r.find? edge.uri = some f → f.contents?.isSome →
      r.Succeeds edge.uri (stack ++ [edge.uri]) := by
  have followed (depth : Nat) : edge.uri ∉ stack ∧ ∃ deeper ≥ depth, ∃ dir includes includes',
      r.followEdge (r.walk deeper) u dir stack includes edge = .ok includes' := by
    obtain ⟨deeper, deep, dir, includes, includes', walked⟩ := h (depth + 1)
    obtain ⟨deeper, rfl⟩ := Nat.exists_eq_add_of_lt deep
    rw [walk_succ] at walked
    obtain ⟨between, after, passed⟩ := forall_of_foldlM_ok walked edge listed
    refine ⟨fun back => ?_, depth + deeper, by omega, dir, between, after, passed⟩
    simp [followEdge, back] at passed
  refine ⟨(followed 0).1, fun f found loaded depth => ?_⟩
  obtain ⟨fresh, deeper, deep, dir, includes, includes', passed⟩ := followed depth
  obtain ⟨text, known⟩ := Option.isSome_iff_exists.mp loaded
  simp only [followEdge, fresh, if_false, found, Option.bind_some, known] at passed
  exact ⟨deeper, deep, _, _, _, passed⟩

theorem succeeds_of_flatten (sound : r.Sound entry) (flattened : r.flatten = .ok includes) :
    r.Succeeds entry [entry] := by
  intro depth
  refine ⟨max depth r.files.length, le_max_left _ _, [], [], includes, ?_⟩
  rw [← flatten_eq_walk sound (le_max_right _ _), flattened]

/-- Only a file with a text includes others. -/
theorem loaded_of_links (consistent : r.Consistent entry) (link : r.Links u v) :
    ∃ f, r.find? u = some f ∧ f.contents?.isSome := by
  obtain ⟨edge, listed, -⟩ := links_iff_outgoing.mp link
  obtain ⟨f, found, own⟩ := mem_outgoing listed
  refine ⟨f, found, Option.isSome_iff_ne_none.mpr fun empty => ?_⟩
  rw [(consistent.files f (mem_of_find? found)).unloaded empty] at own
  cases own

/-- Where walks succeed, no chain of edges leads back to a file on the way. -/
theorem Succeeds.no_return (h : r.Succeeds u stack) (consistent : r.Consistent entry)
    (passed : v ∈ stack) : ¬ Relation.TransGen r.Links u v := by
  intro chain
  induction chain using Relation.TransGen.head_induction_on generalizing stack with
  | single link =>
    obtain ⟨edge, listed, rfl⟩ := links_iff_outgoing.mp link
    exact (h.next listed).1 passed
  | head link chain ih =>
    obtain ⟨edge, listed, rfl⟩ := links_iff_outgoing.mp link
    obtain ⟨w, further, -⟩ := Relation.TransGen.head'_iff.mp chain
    obtain ⟨f, found, loaded⟩ := loaded_of_links consistent further
    exact ih ((h.next listed).2 f found loaded) (List.mem_append_left _ passed)

/-- If flattening succeeds, walks come to every reachable file that has a text. -/
theorem exists_succeeds (sound : r.Sound entry) (flattened : r.flatten = .ok includes)
    (reached : r.Reachable u) (link : r.Links u v) : ∃ stack, r.Succeeds u stack ∧ u ∈ stack := by
  obtain ⟨start, first, chain⟩ := reached
  obtain rfl : entry = start := Option.some.inj (sound.entry?.symm.trans first)
  induction chain generalizing v with
  | refl => exact ⟨[entry], succeeds_of_flatten sound flattened, List.mem_singleton_self _⟩
  | tail _ on ih =>
    obtain ⟨stack, succeeds, -⟩ := ih on
    obtain ⟨edge, listed, rfl⟩ := links_iff_outgoing.mp on
    obtain ⟨f, found, loaded⟩ := loaded_of_links sound.toConsistent link
    exact ⟨_, (succeeds.next listed).2 f found loaded, by simp⟩

/-- Flattening fails on every cycle that the entry file reaches. -/
theorem not_cyclic_of_flatten (sound : r.Sound entry) (flattened : r.flatten = .ok includes) :
    ¬ r.Cyclic := by
  rintro ⟨u, reached, chain⟩
  obtain ⟨v, link, -⟩ := Relation.TransGen.head'_iff.mp chain
  obtain ⟨stack, succeeds, passed⟩ := exists_succeeds sound flattened reached link
  exact succeeds.no_return sound.toConsistent passed chain

/-- Flattening fails on nothing but a cycle. -/
theorem closes_of_flatten (sound : r.Sound entry) {error : ProjectError}
    (failed : r.flatten = .error error) :
    ∃ chain file range, error = .includeCycle chain file range ∧ r.Closes chain file range := by
  rw [flatten_eq_walk sound le_rfl] at failed
  refine closes_of_walk (.singleton entry) ?_ rfl failed
  simpa using sound.toConsistent.reachable

/-- Where walks succeed, the files along a route are all different. -/
theorem Route.length_le (route : r.Route u path f) (h : r.Succeeds u stack)
    (path' : stack.Nodup) (tracked : stack ⊆ r.uris) :
    stack.length + path.length ≤ r.files.length := by
  have longer {stack : List Uri} (path : stack.Nodup) (tracked : stack ⊆ r.uris) :
      stack.length ≤ r.files.length := by
    simpa [uris] using (path.subperm tracked).length_le
  have extended {u : Uri} {edge : Dependency} {g : TrackedFile} {stack : List Uri}
      (h : r.Succeeds u stack) (path : stack.Nodup) (tracked : stack ⊆ r.uris)
      (listed : edge ∈ r.outgoing u) (found : r.find? edge.uri = some g) :
      (stack ++ [edge.uri]).Nodup ∧ stack ++ [edge.uri] ⊆ r.uris := by
    refine ⟨path.append (List.nodup_singleton _) (by simpa using (h.next listed).1), ?_⟩
    refine List.append_subset.mpr ⟨tracked, List.cons_subset.mpr ⟨?_, List.nil_subset _⟩⟩
    exact uri_of_find? found ▸ uri_mem_uris (mem_of_find? found)
  induction route generalizing stack with
  | arrive listed found loaded =>
    obtain ⟨path, tracked⟩ := extended h path' tracked listed found
    simpa using longer path tracked
  | pass listed found loaded onward ih =>
    obtain ⟨path, tracked⟩ := extended h path' tracked listed found
    have := ih ((h.next listed).2 _ found loaded) path tracked
    simp at this ⊢
    omega

/-! ## The include map -/

/-- The include map has the keys of the routes from the entry file, and under each key the
text of the first route with this key. -/
structure Flattens (r : Registry) (entry : Uri) (includes : Assembly.Includes) : Prop where
  keys : ∀ k, k ∈ includes.keys ↔ ∃ path f, r.Route entry path f ∧ keyAlong [] path = k
  first : ∀ k ∈ includes.keys, ∃ path f, r.Route entry path f ∧ keyAlong [] path = k ∧
    f.contents?.isSome ∧ includes.find? k = f.contents? ∧
      ∀ path' f', r.Route entry path' f' → keyAlong [] path' = k →
        path' = path ∨ r.Before entry path path'

theorem handed_eq_routes (sound : r.Sound entry) :
    r.handed = (r.routes r.files.length entry).map fun (path, f) => (keyAlong [] path, f) := by
  obtain ⟨f, found⟩ := exists_find? sound.tracked
  have first : r.entryFile? = some f := by rw [entryFile?, sound.entry?, Option.bind_some, found]
  have below : r.handedBelow r.files.length entry (keyDir []) =
      (r.routes r.files.length entry).map fun (path, f) => (keyAlong [] path, f) :=
    handedBelow_eq_routes
  rw [handed, first]
  exact uri_of_find? found ▸ below

theorem mem_keys_flatten {k : Text} (flattened : r.flatten = .ok includes) :
    k ∈ includes.keys ↔ ∃ f, (k, f) ∈ r.handed := by
  constructor
  · intro listed
    obtain ⟨f, first⟩ := exists_handed flattened listed
    exact ⟨f, List.mem_of_find?_eq_some first⟩
  · rintro ⟨f, given⟩
    rw [← Catalog.find?_isSome_iff_mem_keys, find?_flatten flattened, Option.isSome_map,
      List.find?_isSome]
    exact ⟨_, given, by simp⟩

section flattened

variable (sound : r.Sound entry) (flattened : r.flatten = .ok includes)

include sound flattened

/-- No route is too long for the walk. -/
theorem mem_routes_of_route (route : r.Route entry path f) :
    (path, f) ∈ r.routes r.files.length entry := by
  have short := route.length_le (succeeds_of_flatten sound flattened) (List.nodup_singleton entry)
    (by simpa using sound.tracked)
  exact mem_routes.mpr ⟨route, by simp at short; omega⟩

theorem mem_handed_iff {k : Text} :
    (k, f) ∈ r.handed ↔ ∃ path, r.Route entry path f ∧ keyAlong [] path = k := by
  rw [handed_eq_routes sound]
  constructor
  · intro h
    obtain ⟨⟨path, g⟩, listed, same⟩ := List.mem_map.mp h
    obtain ⟨rfl, rfl⟩ := Prod.mk.inj same
    exact ⟨path, (mem_routes.mp listed).1, rfl⟩
  · rintro ⟨path, route, rfl⟩
    exact List.mem_map.mpr ⟨(path, f), mem_routes_of_route sound flattened route, rfl⟩

/-- The first route that the walk meets under a key comes before all others with this key. -/
theorem exists_first {k : Text} (listed : k ∈ includes.keys) :
    ∃ path f, r.Route entry path f ∧ keyAlong [] path = k ∧ r.handed.find? (·.1 = k) = some (k, f) ∧
      ∀ path' f', r.Route entry path' f' → keyAlong [] path' = k →
        path' = path ∨ r.Before entry path path' := by
  obtain ⟨f, first⟩ := exists_handed flattened listed
  have among := first
  rw [handed_eq_routes sound, List.find?_map] at among
  obtain ⟨⟨path, g⟩, found, same⟩ := Option.map_eq_some_iff.mp among
  obtain ⟨rfl, rfl⟩ := Prod.mk.inj same
  obtain ⟨-, before, after, whole, others⟩ := List.find?_eq_some_iff_append.mp found
  have met : (path, g) ∈ r.routes r.files.length entry := List.mem_of_find?_eq_some found
  refine ⟨path, g, (mem_routes.mp met).1, rfl, first, fun path' f' route alike => ?_⟩
  have met' := mem_routes_of_route sound flattened route
  rw [whole] at met'
  rcases List.mem_append.mp met' with earlier | later
  · exact absurd alike (by simpa using others _ earlier)
  · rcases List.mem_cons.mp later with same | later
    · exact .inl (Prod.mk.inj same).1
    · have order : (r.routes r.files.length entry).Pairwise fun a b => r.Before entry a.1 b.1 :=
        routes_pairwise
      rw [whole] at order
      exact .inr ((List.pairwise_cons.mp (List.pairwise_append.mp order).2.1).1 _ later)

theorem flattens_of_flatten : r.Flattens entry includes where
  keys k := by
    rw [mem_keys_flatten flattened]
    constructor
    · rintro ⟨f, given⟩
      obtain ⟨path, route⟩ := (mem_handed_iff sound flattened).mp given
      exact ⟨path, f, route⟩
    · rintro ⟨path, f, route⟩
      exact ⟨f, (mem_handed_iff sound flattened).mpr ⟨path, route⟩⟩
  first k listed := by
    obtain ⟨path, f, route, key, given, before⟩ := exists_first sound flattened listed
    obtain ⟨text, known⟩ :=
      Option.isSome_iff_exists.mp (mem_handed (List.mem_of_find?_eq_some given)).2
    refine ⟨path, f, route, key, by simp [known], ?_, before⟩
    rw [find?_flatten flattened, given, Option.map_some, known, Option.getD_some]

end flattened

/-- After any history flattening fails if and only if the entry file reaches a cycle, and then
it reports one. Otherwise the include map has the keys of all routes, and under each the text
of the first route with this key. -/
theorem flatten_exact {delay : Nat} {documents : List (Sources × Document)}
    {operations : List (Sources × Operation)} {tracked : Registry}
    (tracking : track delay documents = some tracked)
    (history : tracked.perform operations = some r) (first : r.entry? = some entry) :
    ((∃ chain file range, r.flatten = .error (.includeCycle chain file range)) ↔ r.Cyclic) ∧
      (∀ chain file range, r.flatten = .error (.includeCycle chain file range) →
        r.Closes chain file range) ∧
      (¬ r.Cyclic → ∃ includes, r.flatten = .ok includes ∧ r.Flattens entry includes) := by
  have sound := ((lasting_track tracking).perform history).started.sound first
  have reports : ∀ chain file range, r.flatten = .error (.includeCycle chain file range) →
      r.Closes chain file range := by
    intro chain file range failed
    obtain ⟨_, _, _, same, closes⟩ := closes_of_flatten sound failed
    cases same
    exact closes
  refine ⟨⟨?_, fun cyclic => ?_⟩, reports, fun acyclic => ?_⟩
  · rintro ⟨chain, file, range, failed⟩
    exact (reports chain file range failed).cyclic
  · cases flattened : r.flatten with
    | error error =>
      obtain ⟨chain, file, range, rfl, -⟩ := closes_of_flatten sound flattened
      exact ⟨chain, file, range, rfl⟩
    | ok includes => exact absurd cyclic (not_cyclic_of_flatten sound flattened)
  · cases flattened : r.flatten with
    | error error =>
      obtain ⟨chain, file, range, rfl, closes⟩ := closes_of_flatten sound flattened
      exact absurd closes.cyclic acyclic
    | ok includes => exact ⟨includes, rfl, flattens_of_flatten sound flattened⟩

/-- Two files are included as `b` from different directories; both are in the include map, by
routes of their own. -/
theorem doubled_flattens :
    ¬ doubledFiles.Cyclic ∧ doubledFiles.Flattens doubledText.uri doubledIncludes := by
  have still : doubledFiles.perform [] = some doubledFiles := rfl
  have first : doubledFiles.entry? = some doubledText.uri := by
    decide +kernel
  obtain ⟨fails, -, succeeds⟩ := flatten_exact track_doubled still first
  have acyclic : ¬ doubledFiles.Cyclic := by
    rw [← fails, flatten_doubled]
    rintro ⟨_, _, _, failed⟩
    cases failed
  obtain ⟨includes, flattened, exact⟩ := succeeds acyclic
  obtain rfl : doubledIncludes = includes := Except.ok.inj (flatten_doubled.symm.trans flattened)
  exact ⟨acyclic, exact⟩

end Registry

end AsmServer
