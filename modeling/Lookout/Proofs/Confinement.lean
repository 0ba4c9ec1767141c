import Lookout.Proofs.Pieces
import Lookout.Storage

/-!
# Paths that stay under a root

- **Names** (`Path.names`): the pieces of a path that are neither empty nor dots. They are what the
  components of a path name (`Path.filterMap_components`).
- **Joining** (`Path.components_join`): a path goes on with a name by one component.
- **Resolving** (`Backend.resolve_confined`): the path of a file is the root, followed by the names.
- **Looking up** (`Backend.exists_under_root`): a file that is there lies under the place to which
  the root leads.
-/

namespace Lookout

open Text

namespace Path

variable {root path name : String}

/-- The pieces of a path between slashes that are neither empty nor one or two dots, in their
order. -/
def names (path : String) : List String :=
  ((path.toList.splitOn '/').map String.ofList).filter fun piece => piece ∉ ["", ".", ".."]

/-- What may stand between slashes for something inside a directory. -/
structure IsName (name : String) : Prop where
  not_mem : name ∉ ["", ".", ".."]
  no_slash : '/' ∉ name.toList

theorem isName_of_mem (h : name ∈ names path) : IsName name := by
  unfold names at h
  rw [← pieces_eq_splitOn] at h
  obtain ⟨hmem, hname⟩ := List.mem_filter.1 h
  obtain ⟨piece, hpiece, rfl⟩ := List.mem_map.1 hmem
  refine ⟨of_decide_eq_true hname, ?_⟩
  rw [String.toList_ofList]
  exact not_mem_of_mem_pieces hpiece

/-! ## Reading -/

/-- A piece that names something has its name as a component. -/
theorem component?_of_not_mem {piece : List Char} (h : String.ofList piece ∉ ["", ".", ".."]) :
    component? piece = some (.name (String.ofList piece)) := by
  have hne : ∀ cs, String.ofList cs ∈ ["", ".", ".."] → piece ≠ cs := by
    rintro _ hmem rfl
    exact h hmem
  unfold component?
  rw [if_neg (not_or.2 ⟨hne _ (by decide), hne _ (by decide)⟩), if_neg (hne _ (by decide))]

/-- A piece has the name of its component, unless it is empty or dots. -/
theorem bind_component? (piece : List Char) :
    (component? piece).bind Component.name? =
      Option.guard (fun name => decide (name ∉ ["", ".", ".."])) (String.ofList piece) := by
  by_cases h : String.ofList piece ∈ ["", ".", ".."]
  · have hpiece : piece ∈ [[], ['.'], ['.', '.']] := by
      have hmem := List.mem_map_of_mem (f := String.toList) h
      rwa [String.toList_ofList] at hmem
    have hall : ∀ p ∈ [[], ['.'], ['.', '.']], (component? p).bind Component.name? =
        Option.guard (fun name => decide (name ∉ ["", ".", ".."])) (String.ofList p) := by decide
    exact hall piece hpiece
  · have hguard : Option.guard (fun name => decide (name ∉ ["", ".", ".."]))
        (String.ofList piece) = some (String.ofList piece) := if_pos (decide_eq_true h)
    rw [component?_of_not_mem h, hguard]
    rfl

/-- The names among the components of a path are the names in it. -/
theorem filterMap_components (path : String) :
    (components path).filterMap Component.name? = names path := by
  have hstart : (start? path).toList.filterMap Component.name? = [] := by
    unfold start?
    split
    · rfl
    · split <;> rfl
  unfold components names
  rw [List.filterMap_append, hstart, List.nil_append, List.filterMap_filterMap,
    ← pieces_eq_splitOn, ← List.filterMap_eq_filter, List.filterMap_map]
  exact congrArg (List.filterMap · _) (funext bind_component?)

/-! ## Joining -/

theorem IsName.isAbsolute_eq (h : IsName name) : isAbsolute name = false := by
  unfold isAbsolute
  rw [beq_eq_false_iff_ne]
  exact fun hhead => h.no_slash (List.mem_of_mem_head? hhead)

/-- A name is put behind a slash, unless there is nothing in front of it. -/
theorem join_cases (root : String) (h : IsName name) :
    root = "" ∧ join root name = name ∨
      (∃ front, root.toList = front ++ ['/'] ∧
        (join root name).toList = front ++ '/' :: name.toList) ∨
      root ≠ "" ∧ (join root name).toList = root.toList ++ '/' :: name.toList := by
  unfold join
  rw [h.isAbsolute_eq, if_neg Bool.false_ne_true]
  by_cases hempty : root = ""
  · subst hempty
    exact .inl ⟨rfl, if_pos (.inl rfl)⟩
  have hfilled : root.isEmpty = false := by simpa using hempty
  by_cases hslash : root.toList.getLast? = some '/'
  · obtain ⟨front, hroot⟩ := List.getLast?_eq_some_iff.1 hslash
    refine .inr (.inl ⟨front, hroot, ?_⟩)
    rw [if_pos (.inr hslash), String.toList_append, hroot, List.append_assoc]
    rfl
  · refine .inr (.inr ⟨hempty, ?_⟩)
    rw [if_neg (not_or.2 ⟨by rw [hfilled]; exact Bool.false_ne_true, hslash⟩),
      String.toList_append, String.toList_append, List.append_assoc]
    rfl

/-- Where a path begins does not depend on what is behind a slash. -/
theorem start?_of_slash {front rest : List Char} (h : path.toList = front ++ '/' :: rest) :
    start? path = if front = [] then some .top else start? (String.ofList front) := by
  unfold start? isAbsolute
  rw [h, String.toList_ofList, pieces_append]
  cases front with
  | nil => rfl
  | cons c front =>
    rw [if_neg (List.cons_ne_nil c front)]
    cases hpieces : pieces '/' (c :: front) with
    | nil => exact absurd hpieces (pieces_ne_nil '/' _)
    | cons piece pieces => rfl

/-- **A path goes on with a name by one component.** -/
theorem components_join (root : String) (h : IsName name) :
    components (join root name) = components root ++ [.name name] := by
  have hname : (pieces '/' name.toList).filterMap component? = [.name name] := by
    have hpiece : component? name.toList = some (.name name) := by
      have hread := @component?_of_not_mem name.toList
      rw [String.ofList_toList] at hread
      exact hread h.not_mem
    rw [pieces_of_not_mem h.no_slash, List.filterMap_cons, hpiece]
    rfl
  unfold components
  -- A slash at the end of the root leaves an empty last piece, which is no component.
  rcases join_cases root h with ⟨rfl, hjoin⟩ | ⟨front, hroot, hjoin⟩ | ⟨hne, hjoin⟩
  · have hstart : start? name = none := by
      unfold start?
      rw [h.isAbsolute_eq, pieces_of_not_mem h.no_slash, if_neg Bool.false_ne_true, if_neg]
      intro hdot
      have hname : name = "." := String.toList_inj.1 (Option.some.inj hdot)
      exact h.not_mem (by rw [hname]; decide)
    rw [hjoin, hname, hstart]
    rfl
  · rw [start?_of_slash hjoin, start?_of_slash hroot, hjoin, hroot, pieces_append, pieces_append,
      List.filterMap_append, List.filterMap_append, hname, List.append_assoc, List.append_assoc]
    rfl
  · have hfront : root.toList ≠ [] := fun hnil => hne (String.toList_eq_nil_iff.1 hnil)
    rw [start?_of_slash hjoin, if_neg hfront, String.ofList_toList, hjoin, pieces_append,
      List.filterMap_append, hname, List.append_assoc]

/-- What grows by one with a name at the end of a path grows by as many as there are names. -/
theorem foldl_join {β : Type} {f : String → List β} {g : String → β}
    (hjoin : ∀ root name, IsName name → f (join root name) = f root ++ [g name])
    (root : String) {ns : List String} (h : ∀ name ∈ ns, IsName name) :
    f (ns.foldl join root) = f root ++ ns.map g := by
  induction ns generalizing root with
  | nil => exact (List.append_nil _).symm
  | cons name ns ih =>
    obtain ⟨hname, hns⟩ := List.forall_mem_cons.1 h
    rw [List.foldl_cons, ih _ hns, hjoin root name hname, List.append_assoc]
    rfl

/-! ## Parts -/

theorem isAbsolute_iff : isAbsolute path = true ↔ .top ∈ components path := by
  have hpieces : .top ∉ (pieces '/' path.toList).filterMap component? := by
    intro htop
    obtain ⟨piece, -, hpiece⟩ := List.mem_filterMap.1 htop
    unfold component? at hpiece
    split at hpiece
    · cases hpiece
    · split at hpiece <;> cases hpiece
  have hstart : start? path = some .top ↔ isAbsolute path = true := by
    unfold start?
    split
    · rename_i habsolute
      exact iff_of_true rfl habsolute
    · rename_i habsolute
      refine iff_of_false (fun h => ?_) habsolute
      split at h <;> cases h
  unfold components
  rw [List.mem_append, or_iff_left hpieces, Option.mem_toList]
  exact hstart.symm

theorem isAbsolute_join (root : String) (h : IsName name) :
    isAbsolute (join root name) = isAbsolute root := by
  rw [Bool.eq_iff_iff, isAbsolute_iff, isAbsolute_iff, components_join root h, List.mem_append]
  exact or_iff_left (by simp)

theorem parts_join (root : String) (h : IsName name) :
    FileTree.parts (join root name) = FileTree.parts root ++ [name] := by
  have hname : (pieces '/' name.toList).filter (fun p => !p.isEmpty) = [name.toList] := by
    have hfilled : name.toList.isEmpty = false := by
      rw [List.isEmpty_eq_false_iff]
      exact fun hnil => h.not_mem (by rw [String.toList_eq_nil_iff.1 hnil]; decide)
    rw [pieces_of_not_mem h.no_slash]
    exact List.filter_cons_of_pos (by rw [hfilled]; rfl)
  unfold FileTree.parts
  rcases join_cases root h with ⟨rfl, hjoin⟩ | ⟨front, hroot, hjoin⟩ | ⟨-, hjoin⟩
  · rw [hjoin, hname, List.map_singleton, String.ofList_toList]
    rfl
  · rw [hjoin, hroot, pieces_append, pieces_append, List.filter_append, List.filter_append, hname,
      List.map_append, List.map_append, List.map_singleton, String.ofList_toList,
      List.append_assoc]
    rfl
  · rw [hjoin, pieces_append, List.filter_append, hname, List.map_append, List.map_singleton,
      String.ofList_toList]

/-- The parts of a path that goes on with some names. -/
theorem partsFromTop_foldl_join (tree : FileTree) (root : String) {ns : List String}
    (h : ∀ name ∈ ns, IsName name) :
    tree.partsFromTop (ns.foldl join root) = tree.partsFromTop root ++ ns := by
  have hjoin : ∀ root name, IsName name →
      tree.partsFromTop (join root name) = tree.partsFromTop root ++ [id name] := by
    intro root name hname
    unfold FileTree.partsFromTop
    rw [isAbsolute_join root hname, parts_join root hname]
    split
    · rfl
    · exact (List.append_assoc _ _ _).symm
  rw [foldl_join hjoin root h, List.map_id]

end Path

/-! ## Looking up -/

namespace FileTree

variable {t : FileTree} {place found a b : List String}

theorem descend_cons (t : FileTree) (place : List String) (part : String) (rest : List String) :
    t.descend place (part :: rest) =
      if !t.hasDirectory place then .error .notDirectory
      else if part = "." then t.descend place rest
      else if part = ".." then t.descend place.dropLast rest
      else if maxPartSize < part.utf8ByteSize then .error .nameTooLong
      else if t.has (place ++ [part]) then t.descend (place ++ [part]) rest
      else .ok none :=
  rfl

/-- A search goes on from where the first parts lead to. -/
theorem exists_descend_of_append (h : t.descend place (a ++ b) = .ok (some found)) :
    ∃ base, t.descend place a = .ok (some base) ∧ t.descend base b = .ok (some found) := by
  induction a generalizing place with
  | nil => exact ⟨place, rfl, h⟩
  | cons part a ih =>
    rw [List.cons_append, descend_cons] at h
    rw [descend_cons]
    split at h
    · cases h
    rename_i hdirectory
    rw [if_neg hdirectory]
    split at h
    · rename_i hone
      rw [if_pos hone]
      exact ih h
    rename_i hone
    rw [if_neg hone]
    split at h
    · rename_i htwo
      rw [if_pos htwo]
      exact ih h
    rename_i htwo
    rw [if_neg htwo]
    split at h
    · cases h
    rename_i hsize
    rw [if_neg hsize]
    split at h
    · rename_i hhas
      rw [if_pos hhas]
      exact ih h
    · cases h

/-- Names lead downwards. -/
theorem descend_names (hb : ∀ part ∈ b, Path.IsName part)
    (h : t.descend place b = .ok (some found)) : found = place ++ b := by
  induction b generalizing place with
  | nil =>
    cases h
    exact (List.append_nil _).symm
  | cons part b ih =>
    obtain ⟨hpart, hb⟩ := List.forall_mem_cons.1 hb
    have hone : part ≠ "." := fun hone => hpart.not_mem (by rw [hone]; decide)
    have htwo : part ≠ ".." := fun htwo => hpart.not_mem (by rw [htwo]; decide)
    rw [descend_cons, if_neg hone, if_neg htwo] at h
    split at h
    · cases h
    · split at h
      · cases h
      · split at h
        · rw [ih hb h, List.append_assoc]
          rfl
        · cases h

theorem pathSize_le_append (a b : List String) : pathSize a ≤ pathSize (a ++ b) := by
  have hle : ∀ (l : List String) (n : Nat),
      n ≤ l.foldl (fun size part => size + part.utf8ByteSize + 1) n := by
    intro l
    induction l with
    | nil => exact fun n => Nat.le_refl n
    | cons part l ih =>
      exact fun n => Nat.le_trans (Nat.le_succ_of_le (Nat.le_add_right n _)) (ih _)
  unfold pathSize
  rw [List.foldl_append]
  exact hle b _

/-- What is found by names from a place lies at these names under the place. -/
theorem exists_find_of_append (hb : ∀ part ∈ b, Path.IsName part)
    (h : t.find (a ++ b) = .ok (some found)) :
    ∃ base, t.find a = .ok (some base) ∧ found = base ++ b := by
  unfold find at h ⊢
  split at h
  · cases h
  · rename_i hzero
    split at h
    · cases h
    · rename_i hsize
      obtain ⟨base, hbase, hfound⟩ := exists_descend_of_append h
      rw [List.any_append, Bool.or_eq_true, not_or] at hzero
      rw [if_neg hzero.1, if_neg (Nat.not_lt.2 (Nat.le_trans (pathSize_le_append a b)
        (Nat.not_lt.1 hsize)))]
      exact ⟨base, hbase, descend_names hb hfound⟩

theorem exists_find_of_lookup (h : t.lookup a = .ok true) :
    ∃ place, t.find a = .ok (some place) := by
  unfold lookup at h
  cases hfind : t.find a with
  | error err =>
    rw [hfind] at h
    cases h
  | ok found =>
    rw [hfind] at h
    obtain ⟨place, rfl⟩ := Option.isSome_iff_exists.1 (Except.ok.inj h)
    exact ⟨place, rfl⟩

end FileTree

namespace Backend

open Lookout.Path

variable {root path : String}

theorem resolve_eq (root path : String) : resolve root path = (names path).foldl join root := by
  unfold resolve
  rw [filterMap_components]

/-- **What is looked at lies at or under the root.** The path of a file consists of the root and of
the names in the path, in their order. So the root leads to it, and nothing behind the root leads
upwards. Paths with the same names have the same file. -/
theorem resolve_confined (root path : String) :
    components (resolve root path) = components root ++ (names path).map .name ∧
      components root <+: components (resolve root path) ∧
      .parent ∉ (components (resolve root path)).drop (components root).length ∧
      ∀ path', names path' = names path → resolve root path' = resolve root path := by
  have hcomponents : components (resolve root path) = components root ++ (names path).map .name := by
    rw [resolve_eq]
    exact foldl_join (fun root _ => components_join root) root fun name => isName_of_mem
  refine ⟨hcomponents, ?_, ?_, fun path' h => ?_⟩
  · rw [hcomponents]
    exact List.prefix_append _ _
  · rw [hcomponents, List.drop_left]
    intro hparent
    obtain ⟨name, -, hname⟩ := List.mem_map.1 hparent
    cases hname
  · rw [resolve_eq, resolve_eq, h]

/-- Leading slashes, and dots between slashes, do not lead out of the root. -/
theorem resolve_confined_passwd :
    resolve "/srv/data" "/../../etc/./passwd/" = resolve "/srv/data" "etc//passwd" ∧
      components (resolve "/srv/data" "/../../etc/./passwd/") =
        [.top, .name "srv", .name "data", .name "etc", .name "passwd"] := by
  obtain ⟨hcomponents, -, -, hsame⟩ := resolve_confined "/srv/data" "/../../etc/./passwd/"
  refine ⟨(hsame "etc//passwd" (by decide +kernel)).symm, hcomponents.trans ?_⟩
  decide +kernel

variable {tree : FileTree} {k : CheckKey}

/-- Under a place, what is looked at is the place and then the names. -/
theorem exists?_fileTree (tree : FileTree) {place : List String}
    (h : ∀ part ∈ place, IsName part) (k : CheckKey) :
    (fileTree tree place).exists? k =
      (tree.lookup (place ++ names k.path)).mapError (.io k.path) := by
  have hplace : tree.partsFromTop (FileTree.pathTo place) = place :=
    partsFromTop_foldl_join tree "/" h
  have hparts : tree.partsFromTop (resolve (FileTree.pathTo place) k.path) =
      place ++ names k.path := by
    rw [resolve_eq, partsFromTop_foldl_join tree _ fun name => isName_of_mem, hplace]
  unfold fileTree exists?
  dsimp only
  rw [hparts]

/-- **A file that is there lies under the place to which the root leads**, at the names in its
path. -/
theorem exists_under_root (h : (files tree root).exists? k = .ok true) :
    ∃ base, tree.find (tree.partsFromTop root) = .ok (some base) ∧
      tree.find (tree.partsFromTop (resolve root k.path)) = .ok (some (base ++ names k.path)) := by
  have hnames : ∀ name ∈ names k.path, IsName name := fun name => isName_of_mem
  have hlookup : tree.lookup (tree.partsFromTop (resolve root k.path)) = .ok true := by
    unfold exists? at h
    dsimp only at h
    cases hfound : tree.lookup (tree.partsFromTop (resolve root k.path)) with
    | error err =>
      rw [hfound] at h
      cases h
    | ok there =>
      rw [hfound] at h
      cases h
      rfl
  obtain ⟨found, hfind⟩ := FileTree.exists_find_of_lookup hlookup
  rw [resolve_eq, partsFromTop_foldl_join tree root hnames] at hfind ⊢
  obtain ⟨base, hbase, rfl⟩ := FileTree.exists_find_of_append hnames hfind
  exact ⟨base, hbase, hfind⟩

end Backend

end Lookout
