import AsmServer.Proofs.Uri.Canonical

/-!
# Descents

What a relative path comes to by its text alone is a descent: some steps up, then names down. The
same segments lead from any directory, and reading on from a directory is reading the directory
first. The spelling of a descent, the steps and the names with slashes between them, is read back
as the descent.
-/

namespace AsmServer

namespace Path

variable {names : List Text} {base other : Text}

/-! ## Texts with straight slashes -/

theorem slashed_of_not_mem {text : Text} (straight : '\\' ∉ text) : Text.slashed text = text := by
  have same : ∀ c ∈ text, (if c = '\\' then '/' else c) = c := by
    rintro c member
    rw [if_neg]
    rintro rfl
    exact straight member
  exact (List.map_congr_left same).trans (List.map_id text)

theorem backslash_not_mem_join {parts : List Text} (h : ∀ part ∈ parts, '\\' ∉ part) :
    '\\' ∉ Text.join ['/'] parts := by
  induction parts with
  | nil => simp [Text.join]
  | cons first rest ih =>
    obtain ⟨here, later⟩ := List.forall_mem_cons.mp h
    cases rest with
    | nil => simpa [Text.join] using here
    | cons second rest =>
      have : '\\' ∉ Text.join ['/'] (second :: rest) := ih later
      simpa [Text.join, List.intercalate_cons_cons, here] using this

/-! ## Appending a relative name -/

section steps

variable {α : Type} (step : α → Text → α) (start : α) (idle : ∀ a, step a [] = a)

include idle

/-- Nothing is between a text that is empty or ends with a slash and what follows. -/
theorem foldl_splitOn_concat (joined : base = [] ∨ base.getLast? = some '/') :
    ((base ++ other).splitOn '/').foldl step start =
      (other.splitOn '/').foldl step ((base.splitOn '/').foldl step start) := by
  rcases joined with rfl | slash
  · simp [idle]
  · obtain ⟨before, rfl⟩ := List.getLast?_eq_some_iff.mp slash
    rw [List.append_assoc, List.singleton_append, List.splitOn_append_cons_self,
      List.splitOn_append_cons_self]
    simp [idle]

/-- Reading on from a directory is reading the directory first. -/
theorem foldl_splitOn_append (relative : isAbsolute other = false) :
    ((append base other).splitOn '/').foldl step start =
      (other.splitOn '/').foldl step ((base.splitOn '/').foldl step start) := by
  unfold append
  rw [if_neg (by simp [relative])]
  split_ifs with joined
  · exact foldl_splitOn_concat step start idle joined
  · rw [List.splitOn_append_cons_self, List.foldl_append]

end steps

theorem enter_nil : enter names [] = names := rfl

theorem place_slashed_append (relative : isAbsolute other = false) :
    place (Text.slashed (append base other)) =
      ((Text.slashed other).splitOn '/').foldl enter (place (Text.slashed base)) := by
  have whole (a b : Text) : Text.slashed (a ++ b) = Text.slashed a ++ Text.slashed b :=
    List.map_append
  unfold append
  rw [if_neg (by simp [relative])]
  split_ifs with joined
  · rw [whole, place]
    refine foldl_splitOn_concat enter [] (fun _ => enter_nil) ?_
    rcases joined with rfl | slash
    · exact .inl rfl
    · exact .inr (by simp [Text.slashed, Text.replaceChar, List.getLast?_map, slash])
  · have cons : Text.slashed ('/' :: other) = '/' :: Text.slashed other := rfl
    rw [whole, cons, place, List.splitOn_append_cons_self, List.foldl_append, place]

/-! ## Descents -/

namespace Descent

/-- Follow one segment. -/
def enter (path : Descent) (segment : Text) : Descent :=
  ((Component.ofSegment? segment).map path.follow).getD path

/-- Where the text of a path leads. -/
def ofPath (path : Text) : Descent := ofComponents (components path)

theorem ofPath_eq_foldl (path : Text) :
    ofPath path = (path.splitOn '/').foldl enter ⟨0, []⟩ := by
  have first (start : Descent) : (if isAbsolute path then [Component.root]
      else if (path.splitOn '/').head? = some ['.'] then [.here] else []).foldl follow start
        = start := by
    split_ifs <;> rfl
  rw [ofPath, ofComponents, components, List.foldl_append, first, List.foldl_filterMap]
  congr 1
  funext path segment
  unfold enter
  cases Component.ofSegment? segment <;> rfl

theorem ofPath_append (relative : isAbsolute other = false) :
    ofPath (append base other) = (other.splitOn '/').foldl enter (ofPath base) := by
  rw [ofPath_eq_foldl, foldl_splitOn_append enter _ (fun _ => rfl) relative, ofPath_eq_foldl]

/-- What ends with the names of a descent still does after one more segment. -/
theorem enter_suffix {path : Descent} {segment : Text} (h : path.names <:+ names) :
    (path.enter segment).names <:+ Path.enter names segment := by
  obtain ⟨before, rfl⟩ := h
  unfold enter Path.enter Component.ofSegment?
  split_ifs with vacant up
  · exact List.suffix_append _ _
  · cases empty : path.names with
    | nil => simp [follow, empty]
    | cons first rest =>
      rw [List.dropLast_append_of_ne_nil (by simp)]
      simp [follow, empty]
  · simp [follow]

theorem foldl_enter_suffix {path : Descent} {segments : List Text} (h : path.names <:+ names) :
    (segments.foldl enter path).names <:+ segments.foldl Path.enter names := by
  induction segments generalizing path names with
  | nil => exact h
  | cons segment rest ih => exact ih (enter_suffix h)

/-! ## The directory of a descent -/

/-- The segments of the spelling. -/
def segments (path : Descent) : List Text := List.replicate path.ups ['.', '.'] ++ path.names

theorem segments_eq_nil_iff {path : Descent} : path.segments = [] ↔ path = ⟨0, []⟩ := by
  obtain ⟨ups, names⟩ := path
  simp [segments]

/-- One name less, or one step less if there is no name. -/
def parent (path : Descent) : Descent :=
  if path.names = [] then { path with ups := path.ups - 1 }
  else { path with names := path.names.dropLast }

theorem segments_parent (path : Descent) : path.parent.segments = path.segments.dropLast := by
  unfold parent segments
  split_ifs with empty
  · simp [empty, List.dropLast_replicate]
  · rw [List.dropLast_append_of_ne_nil empty]

theorem parent_ups_le (path : Descent) : path.parent.ups ≤ path.ups := by
  unfold parent
  split_ifs
  · exact Nat.sub_le _ _
  · exact Nat.le_refl _

/-- What ends with the names of a descent still does one directory above. -/
theorem parent_suffix {path : Descent} (h : path.names <:+ names) :
    path.parent.names <:+ names.dropLast := by
  obtain ⟨before, rfl⟩ := h
  unfold parent
  split_ifs with empty
  · simp [empty]
  · rw [List.dropLast_append_of_ne_nil empty]
    exact List.suffix_append _ _

end Descent

/-! ## Segments that lead somewhere -/

/-- Whether the segment is a name by its spelling. -/
def Solid (segment : Text) : Prop := isVacant segment = false ∧ segment ≠ ['.', '.']

theorem IsName.solid {segment : Text} (h : IsName segment) : Solid segment :=
  ⟨h.not_vacant, h.ne_up⟩

theorem Solid.component {segment : Text} (h : Solid segment) :
    Component.ofSegment? segment = some (.name segment) := by
  simp [Component.ofSegment?, h.1, h.2]

theorem solid_of_component_name {segment : Text}
    (h : Component.ofSegment? segment = some (.name segment)) : Solid segment := by
  unfold Component.ofSegment? at h
  split_ifs at h with vacant up
  · cases h
  · exact ⟨Bool.eq_false_iff.mpr vacant, up⟩

/-- Whether the text between two slashes leads up or down. -/
structure IsPart (segment : Text) : Prop where
  leads : isVacant segment = false
  whole : '/' ∉ segment

theorem isPart_up : IsPart ['.', '.'] := ⟨by decide, by decide⟩

theorem IsName.isPart {segment : Text} (h : IsName segment) : IsPart segment :=
  ⟨h.not_vacant, h.whole⟩

section parts

variable {segments : List Text} (parts : ∀ segment ∈ segments, IsPart segment)

include parts

theorem dropVacantEnd_of_parts : dropVacantEnd segments = segments := by
  unfold dropVacantEnd
  cases back : segments.reverse with
  | nil => simpa using back
  | cons last rest =>
    have solid : isVacant last = false :=
      (parts last (by rw [← List.mem_reverse, back]; exact List.mem_cons_self)).leads
    rw [List.dropWhile_cons_of_neg (by simp [solid]), ← back, List.reverse_reverse]

theorem splitOn_parts (h : segments ≠ []) : (Text.join ['/'] segments).splitOn '/' = segments :=
  List.splitOn_intercalate _ (fun segment member => (parts segment member).whole) h

theorem isAbsolute_parts : isAbsolute (Text.join ['/'] segments) = false := by
  cases segments with
  | nil => rfl
  | cons first rest =>
    have part := parts first List.mem_cons_self
    obtain ⟨c, text, rfl⟩ : ∃ c text, first = c :: text :=
      List.exists_cons_of_ne_nil (by rintro rfl; exact absurd part.leads (by decide))
    have : c ≠ '/' := fun same => part.whole (same ▸ List.mem_cons_self)
    simp [isAbsolute, Text.join, intercalate_rooted, this]

theorem head?_parts : segments.head? ≠ some ['.'] := fun here =>
  absurd (parts _ (List.mem_of_head? here)).leads (by decide)

theorem components_parts (h : segments ≠ []) :
    components (Text.join ['/'] segments) = segments.filterMap Component.ofSegment? := by
  simp [components, isAbsolute_parts parts, splitOn_parts parts h, head?_parts parts]

theorem parent?_join (h : segments ≠ []) :
    parent? (Text.join ['/'] segments) = some (Text.join ['/'] segments.dropLast) := by
  have above := dropVacantEnd_of_parts fun segment member =>
    parts segment ((List.dropLast_sublist _).subset member)
  unfold parent?
  simp only [isAbsolute_parts parts, splitOn_parts parts h, head?_parts parts, Bool.false_eq_true,
    if_false, dropVacantEnd_of_parts parts, above]
  rfl

end parts

theorem join_append {front back : List Text} (some : front ≠ []) (more : back ≠ []) :
    Text.join ['/'] (front ++ back) = Text.join ['/'] front ++ '/' :: Text.join ['/'] back := by
  induction front with
  | nil => exact absurd rfl some
  | cons first rest ih =>
    cases rest with
    | nil =>
      obtain ⟨second, later, rfl⟩ := List.exists_cons_of_ne_nil more
      simp [Text.join, List.intercalate_cons_cons]
    | cons second rest =>
      have next := ih (List.cons_ne_nil _ _)
      simp only [Text.join, List.cons_append, List.intercalate_cons_cons] at next ⊢
      rw [next]
      simp

/-- A directory and a relative path behind it are spelled by the segments of both. -/
theorem append_join {front back : List Text} (parts : ∀ segment ∈ front, IsPart segment)
    (parts' : ∀ segment ∈ back, IsPart segment) (more : back ≠ []) :
    append (Text.join ['/'] front) (Text.join ['/'] back) = Text.join ['/'] (front ++ back) := by
  unfold append
  rw [if_neg (by simp [isAbsolute_parts parts'])]
  rcases List.eq_nil_or_concat front with rfl | ⟨before, last, rfl⟩
  · simp [Text.join]
  · rw [List.concat_eq_append] at parts ⊢
    have part := parts last (by simp)
    have ends : ∃ lead, Text.join ['/'] (before ++ [last]) = lead ++ last := by
      by_cases alone : before = []
      · exact ⟨[], by simp [alone, Text.join]⟩
      · refine ⟨Text.join ['/'] before ++ ['/'], ?_⟩
        rw [join_append alone (List.cons_ne_nil _ _), List.append_assoc, List.singleton_append]
        simp [Text.join]
    obtain ⟨lead, spelled⟩ := ends
    obtain ⟨text, c, rfl⟩ : ∃ text c, last = text ++ [c] := by
      rcases List.eq_nil_or_concat last with rfl | ⟨text, c, rfl⟩
      · exact absurd part.leads (by decide)
      · exact ⟨text, c, List.concat_eq_append⟩
    have open' : c ≠ '/' := fun same => part.whole (by simp [same])
    rw [if_neg (by simp [spelled, ← List.append_assoc, open']), join_append (by simp) more]

/-- Whether a segment leads one step up or down. -/
def IsStep (segment : Text) : Prop := segment = ['.', '.'] ∨ IsName segment

theorem IsStep.isPart {segment : Text} (h : IsStep segment) : IsPart segment := by
  rcases h with rfl | name
  · exact isPart_up
  · exact name.isPart

theorem IsStep.straight {segment : Text} (h : IsStep segment) : '\\' ∉ segment := by
  rcases h with rfl | name
  · decide
  · exact name.straight

/-! ## Spelled descents -/

namespace Descent

variable {path : Descent}

/-- Whether the names of the descent can stand between two slashes. -/
def Proper (path : Descent) : Prop := ∀ name ∈ path.names, Solid name ∧ '/' ∉ name

theorem proper_of_isName (names : ∀ name ∈ path.names, IsName name) : path.Proper :=
  fun name member => ⟨(names name member).solid, (names name member).whole⟩

theorem isStep_of_mem_segments (proper : ∀ name ∈ path.names, IsName name) {segment : Text}
    (h : segment ∈ path.segments) : IsStep segment := by
  rcases List.mem_append.mp h with up | down
  · exact .inl (List.eq_of_mem_replicate up)
  · exact .inr (proper segment down)

theorem Proper.parent (proper : path.Proper) : path.parent.Proper := by
  unfold Descent.parent
  split_ifs
  · exact proper
  · exact fun name member => proper name (List.dropLast_subset _ member)

theorem Proper.isPart (proper : path.Proper) : ∀ segment ∈ path.segments, IsPart segment := by
  intro segment member
  rcases List.mem_append.mp member with up | down
  · exact List.eq_of_mem_replicate up ▸ isPart_up
  · exact ⟨(proper segment down).1.1, (proper segment down).2⟩

/-- Each step up takes one name back, or leads further up if there is none. -/
theorem foldl_enter_replicate (n k : Nat) (names : List Text) :
    (List.replicate n ['.', '.']).foldl enter ⟨k, names⟩
      = ⟨k + (n - names.length), names.take (names.length - n)⟩ := by
  have up (path : Descent) : path.enter ['.', '.'] = path.follow .up := rfl
  induction n generalizing k names with
  | zero => simp
  | succ n ih =>
    rw [List.replicate_succ, List.foldl_cons, up, follow]
    split_ifs with empty
    · rw [ih, show names = [] from empty]
      simp [Nat.add_right_comm, Nat.add_assoc]
    · have some : 0 < names.length := List.length_pos_iff.mpr empty
      have ups : k + (n - (names.length - 1)) = k + (n + 1 - names.length) := by omega
      have left : min (names.length - 1 - n) (names.length - 1) = names.length - (n + 1) := by omega
      rw [ih, List.length_dropLast, List.dropLast_eq_take, List.take_take, ups, left]

/-- Each name leads further down. -/
theorem foldl_enter_solid {names : List Text} (solid : ∀ name ∈ names, Solid name) (k : Nat)
    (before : List Text) : names.foldl enter ⟨k, before⟩ = ⟨k, before ++ names⟩ := by
  induction names generalizing before with
  | nil => simp
  | cons name rest ih =>
    obtain ⟨here, later⟩ := List.forall_mem_cons.mp solid
    have next : enter ⟨k, before⟩ name = ⟨k, before ++ [name]⟩ := by
      simp [enter, here.component, follow]
    rw [List.foldl_cons, next, ih later, List.append_assoc, List.singleton_append]

/-- The segments of a descent, followed from below the root: the steps take names back first. -/
theorem Proper.foldl_enter_segments (proper : path.Proper) (k : Nat) (names : List Text) :
    path.segments.foldl enter ⟨k, names⟩
      = ⟨k + (path.ups - names.length),
          names.take (names.length - path.ups) ++ path.names⟩ := by
  rw [segments, List.foldl_append, foldl_enter_replicate,
    foldl_enter_solid fun name member => (proper name member).1]

theorem ofPath_join {segments : List Text} (parts : ∀ segment ∈ segments, IsPart segment) :
    ofPath (Text.join ['/'] segments) = segments.foldl enter ⟨0, []⟩ := by
  by_cases empty : segments = []
  · rw [empty]
    rfl
  · rw [ofPath_eq_foldl, splitOn_parts parts empty]

/-- A descent is what its spelling says. -/
theorem ofPath_toText (proper : path.Proper) : ofPath path.toText = path := by
  refine (ofPath_join proper.isPart).trans ?_
  rw [proper.foldl_enter_segments]
  simp

/-- The directory of a spelled descent spells the descent to the directory. -/
theorem parent?_toText (proper : path.Proper) :
    (parent? path.toText).getD [] = path.parent.toText := by
  have spelled (path : Descent) : path.toText = Text.join ['/'] path.segments := rfl
  rw [spelled path.parent, segments_parent, spelled path]
  by_cases empty : path.segments = []
  · rw [empty]
    rfl
  · rw [parent?_join proper.isPart empty, Option.getD_some]

end Descent

/-! ## Places of paths -/

theorem enter_of_solid {segment : Text} (h : Solid segment) :
    enter names segment = names ++ [segment] := by
  simp [enter, h.1, h.2]

theorem foldl_enter_of_solid (solid : ∀ name ∈ names, Solid name) (before : List Text) :
    names.foldl enter before = before ++ names := by
  induction names generalizing before with
  | nil => simp
  | cons name rest ih =>
    obtain ⟨here, later⟩ := List.forall_mem_cons.mp solid
    rw [List.foldl_cons, ih later, enter_of_solid here, List.append_assoc, List.singleton_append]

section names

variable (proper : ∀ name ∈ names, IsName name)

include proper

theorem foldl_enter_names (before : List Text) : names.foldl enter before = before ++ names :=
  foldl_enter_of_solid (fun name member => (proper name member).solid) before

theorem place_join : place (Text.join ['/'] names) = names := by
  by_cases empty : names = []
  · subst empty
    rfl
  · rw [place, splitOn_join proper empty, foldl_enter_names proper, List.nil_append]

theorem place_rooted : place (rooted names) = names := by
  rw [rooted_eq_cons_join, place, List.splitOn_cons_eq_if_modifyHead]
  exact place_join proper

theorem slashed_join : Text.slashed (Text.join ['/'] names) = Text.join ['/'] names :=
  slashed_of_not_mem (backslash_not_mem_join fun name member => (proper name member).straight)

theorem slashed_rooted : Text.slashed (rooted names) = rooted names := by
  rw [rooted_eq_cons_join]
  exact congrArg ('/' :: ·) (slashed_join proper)

theorem parent?_rooted (h : names ≠ []) :
    parent? (rooted names) = some (rooted names.dropLast) := by
  have parts (name : Text) (member : name ∈ names) : IsPart name := (proper name member).isPart
  have above := dropVacantEnd_of_parts fun name member =>
    parts name ((List.dropLast_sublist _).subset member)
  rw [rooted_eq_cons_join, rooted_eq_cons_join]
  unfold parent?
  simp only [isAbsolute, List.head?_cons, decide_true, if_true, List.tail_cons,
    splitOn_join proper h, dropVacantEnd_of_parts parts, above]
  rfl

end names

/-! ## Descents from a place -/

theorem enter_of_component {segment : Text}
    (component : Component.ofSegment? segment = some (.name segment)) :
    enter names segment = names ++ [segment] := by
  unfold Component.ofSegment? at component
  unfold enter
  split_ifs at component ⊢ <;> simp at component ⊢

namespace Descent

variable {path : Descent}

/-- Where a descent leads from the place with these names. -/
def onto (path : Descent) (names : List Text) : List Text := path.segments.foldl Path.enter names

/-- No name of the descent is a step up or none at all. -/
def Plain (path : Descent) : Prop :=
  ∀ name ∈ path.names, Component.ofSegment? name = some (.name name)

theorem plain_of_isName (proper : ∀ name ∈ path.names, IsName name) : path.Plain :=
  fun name member => (proper name member).component

/-- Following a segment reads a component, if the segment is one. -/
theorem enter_cases (path : Descent) (segment : Text) :
    (path.enter segment = path ∧ ∀ names, Path.enter names segment = names) ∨
      (segment = ['.', '.'] ∧ path.enter segment = path.follow .up) ∨
      (Component.ofSegment? segment = some (.name segment) ∧
        path.enter segment = { path with names := path.names ++ [segment] }) := by
  unfold enter Path.enter Component.ofSegment?
  split_ifs with vacant up
  · exact .inl ⟨rfl, fun _ => rfl⟩
  · exact .inr (.inl ⟨up, rfl⟩)
  · exact .inr (.inr ⟨rfl, rfl⟩)

theorem plain_nil : Plain ⟨0, []⟩ := by simp [Plain]

theorem plain_enter (h : path.Plain) (segment : Text) : (path.enter segment).Plain := by
  rcases enter_cases path segment with ⟨same, -⟩ | ⟨-, climbs⟩ | ⟨component, falls⟩
  · rwa [same]
  · intro name member
    rw [climbs, follow] at member
    split_ifs at member with empty
    · exact h name member
    · exact h name ((List.dropLast_sublist _).subset member)
  · intro name member
    rw [falls] at member
    rcases List.mem_append.mp member with old | new
    · exact h name old
    · rwa [List.mem_singleton.mp new]

/-- One name less leads to the directory above. -/
theorem onto_dropLast (h : path.Plain) (some : path.names ≠ []) :
    onto { path with names := path.names.dropLast } names = (path.onto names).dropLast := by
  obtain ⟨before, final, whole⟩ := (List.eq_nil_or_concat path.names).resolve_left some
  have component := h final (by simp [whole])
  simp [onto, segments, whole, List.foldl_append, enter_of_component component]

/-- A segment more leads on from where the descent led. -/
theorem onto_enter (h : path.Plain) (segment : Text) :
    (path.enter segment).onto names = Path.enter (path.onto names) segment := by
  rcases enter_cases path segment with ⟨same, stays⟩ | ⟨rfl, climbs⟩ | ⟨component, falls⟩
  · rw [same, stays]
  · have above : Path.enter (path.onto names) ['.', '.'] = (path.onto names).dropLast := rfl
    rw [climbs, above, follow]
    split_ifs with empty
    · rw [onto, segments, onto, segments, List.replicate_succ', empty, List.append_nil,
        List.append_nil, List.foldl_append]
      rfl
    · exact onto_dropLast h empty
  · rw [falls, onto, segments, ← List.append_assoc, List.foldl_append]
    rfl

theorem plain_foldl_enter (h : path.Plain) (segments : List Text) :
    (segments.foldl enter path).Plain := by
  induction segments generalizing path with
  | nil => exact h
  | cons segment rest ih => exact ih (plain_enter h segment)

theorem onto_foldl_enter (h : path.Plain) (segments : List Text) :
    (segments.foldl enter path).onto names = segments.foldl Path.enter (path.onto names) := by
  induction segments generalizing path with
  | nil => rfl
  | cons segment rest ih =>
    rw [List.foldl_cons, ih (plain_enter h segment), onto_enter h, List.foldl_cons]

theorem plain_ofPath (text : Text) : (ofPath text).Plain := by
  rw [ofPath_eq_foldl]
  exact plain_foldl_enter plain_nil _

theorem mem_names_foldl_enter {name : Text} {segments : List Text}
    (h : name ∈ (segments.foldl enter path).names) : name ∈ path.names ∨ name ∈ segments := by
  induction segments generalizing path with
  | nil => exact .inl h
  | cons segment rest ih =>
    rcases ih h with here | later
    · rcases enter_cases path segment with ⟨same, -⟩ | ⟨-, climbs⟩ | ⟨-, falls⟩
      · exact .inl (same ▸ here)
      · rw [climbs, follow] at here
        split_ifs at here
        · exact .inl here
        · exact .inl (List.dropLast_subset _ here)
      · rw [falls] at here
        exact (List.mem_append.mp here).imp_right fun last => by simp [List.mem_singleton.mp last]
    · exact .inr (List.mem_cons_of_mem _ later)

theorem proper_ofPath (text : Text) : (ofPath text).Proper := by
  intro name member
  refine ⟨solid_of_component_name (plain_ofPath text name member), ?_⟩
  rw [ofPath_eq_foldl] at member
  rcases mem_names_foldl_enter member with none | segment
  · cases none
  · exact (Text.mem_splitOn segment).1

/-- No step is ever taken back above the start. -/
theorem ups_le_foldl_enter (path : Descent) (segments : List Text) :
    path.ups ≤ (segments.foldl enter path).ups := by
  induction segments generalizing path with
  | nil => exact Nat.le_refl _
  | cons segment rest ih =>
    refine Nat.le_trans ?_ (ih _)
    rcases enter_cases path segment with ⟨same, -⟩ | ⟨-, climbs⟩ | ⟨-, falls⟩
    · rw [same]
    · rw [climbs, follow]
      split_ifs
      · exact Nat.le_succ _
      · exact Nat.le_refl _
    · rw [falls]

/-- From the root, the descent of a text leads to the place of the text. -/
theorem onto_ofPath (text : Text) : (ofPath text).onto [] = place text := by
  rw [ofPath_eq_foldl, onto_foldl_enter plain_nil]
  rfl

end Descent

end Path

end AsmServer
