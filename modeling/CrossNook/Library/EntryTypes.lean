import CrossNook.Library.Library

/-!
# The library and the types of directory entries

A file system either reports the type of a directory entry with its name, or leaves it unknown.
The scan then asks `stat`, which follows links, and takes whatever is not a directory. The two
ways list the same books as long as the entries named like books are regular files and directories.

## Main definitions

* `BookLibrary.Content`: the content of a directory
* `BookLibrary.Content.source`: the directory, with or without the types of its entries

## Main results

* `BookLibrary.source_types_iff`: when the two scans agree
-/

namespace BookLibrary

open Bytes (ascii)
open Comparator (Ordered Sorts)

/-- An entry of a directory: its type, and the type of the file that `stat` finds, if any. -/
structure Node where
  name : List UInt8
  type : FileType
  stat : Option FileType
  /-- `stat` differs from the entry only by following links. -/
  stat_eq : type ≠ .symlink → ∀ t, stat = some t → t = type

/-- The content of a directory, with one entry for each name. -/
structure Content where
  nodes : List Node
  nodup : (nodes.map Node.name).Nodup

/-- Whether the file system reports the types of entries. -/
inductive Reporting
  | types
  | unknown
  deriving DecidableEq

/-- The entry that `readdir` delivers. -/
def Node.dirent (reporting : Reporting) (node : Node) : Dirent where
  name := node.name
  dType :=
    match reporting with
    | .types => some node.type
    | .unknown => none

namespace Content

variable (content : Content) (dir : List UInt8)

/-- `stat` on the paths of the directory. -/
def stat (path : List UInt8) : Option FileType :=
  (content.nodes.find? fun node => pathOf dir node.name = path).bind Node.stat

/-- The directory as the scan finds it. -/
def source (reporting : Reporting) (memory : ℕ → Bool) : Source where
  entries := some (content.nodes.map (Node.dirent reporting))
  stat := content.stat dir
  memory := memory

/-- Among the entries with the name of a book, the regular files are those that `stat` finds as
something else than a directory. -/
def Plain : Prop :=
  ∀ node ∈ content.nodes, (bookName node.name).isSome →
    (node.type = .regular ↔ ∃ t, node.stat = some t ∧ t ≠ .directory)

end Content

variable {content : Content} {dir : List UInt8}

theorem pathOf_injective (dir : List UInt8) : Function.Injective (pathOf dir) := by
  intro a b h
  exact (List.cons.inj (List.append_cancel_left h)).2

/-- `stat` finds the entry of the name. -/
theorem stat_pathOf {node : Node} (h : node ∈ content.nodes) :
    content.stat dir (pathOf dir node.name) = node.stat := by
  have hfind : content.nodes.find? (fun other => pathOf dir other.name = pathOf dir node.name) =
      some node := by
    obtain ⟨before, after, hsplit⟩ := List.append_of_mem h
    have hnodup := content.nodup
    rw [hsplit, List.map_append, List.map_cons, List.nodup_append] at hnodup
    rw [hsplit, List.find?_append]
    have hbefore : before.find? (fun other => pathOf dir other.name = pathOf dir node.name) =
        none := by
      rw [List.find?_eq_none]
      intro other hother heq
      have hname := pathOf_injective dir (of_decide_eq_true heq)
      exact hnodup.2.2 other.name (List.mem_map_of_mem hother) node.name (by simp) hname
    rw [hbefore, List.find?_cons_of_pos (by simp)]
    rfl
  rw [Content.stat, hfind]
  rfl

theorem listable_types (memory : ℕ → Bool) (node : Node) :
    listable (content.source dir .types memory) (pathOf dir node.name)
      (node.dirent .types).dType = true ↔ node.type = .regular :=
  decide_eq_true_iff

theorem listable_unknown {node : Node} (h : node ∈ content.nodes) (memory : ℕ → Bool) :
    listable (content.source dir .unknown memory) (pathOf dir node.name)
      (node.dirent .unknown).dType = true ↔ ∃ t, node.stat = some t ∧ t ≠ .directory := by
  have hstat : content.stat dir (pathOf dir node.name) = node.stat := stat_pathOf h
  have hdirectory : isDirectory (content.source dir .unknown memory) (pathOf dir node.name) = 0 ↔
      ∃ t, node.stat = some t ∧ t ≠ .directory := by
    simp only [isDirectory, Content.source, hstat]
    cases node.stat with
    | none => simp
    | some t => by_cases ht : t = .directory <;> simp [ht]
  exact decide_eq_true_iff.trans hdirectory

/-- The book of an entry, if the entry is listed. -/
theorem bookOf_dirent {reporting : Reporting} {memory : ℕ → Bool} (node : Node) :
    bookOf (content.source dir reporting memory) dir (node.dirent reporting) =
      (bookName node.name).bind fun fmt =>
        if listable (content.source dir reporting memory) (pathOf dir node.name)
          (node.dirent reporting).dType then some (bookAt dir node.name fmt) else none := rfl

/-- Where the entries are plain, every turn of the two scans is the same. -/
theorem scanEntry_dirent (h : content.Plain) (memory : ℕ → Bool) {node : Node}
    (hnode : node ∈ content.nodes) (s : Library × ℕ) :
    scanEntry (content.source dir .types memory) dir s (node.dirent .types) =
      scanEntry (content.source dir .unknown memory) dir s (node.dirent .unknown) := by
  obtain ⟨lib, n⟩ := s
  cases hname : bookName node.name with
  | none =>
    have hskip : ∀ reporting, bookName (node.dirent reporting).name = none := fun _ => hname
    rw [scanEntry_of_not_bookName (hskip .types), scanEntry_of_not_bookName (hskip .unknown)]
  | some fmt =>
    have hbook : ∀ reporting, bookName (node.dirent reporting).name = some fmt := fun _ => hname
    rw [scanEntry_of_bookName (hbook .types), scanEntry_of_bookName (hbook .unknown)]
    have hplain := h node hnode (by rw [hname]; rfl)
    have hlist : listable (content.source dir .types memory) (pathOf dir node.name)
        (node.dirent .types).dType = listable (content.source dir .unknown memory)
        (pathOf dir node.name) (node.dirent .unknown).dType := by
      rw [Bool.eq_iff_iff]
      exact (listable_types memory node).trans (hplain.trans (listable_unknown hnode memory).symm)
    refine if_congr Iff.rfl rfl (if_congr ?_ rfl rfl)
    exact iff_of_eq (congrArg (· = true) hlist)

theorem foldlM_congr_left {α β : Type} {f g : β → α → Option β} (l : List α)
    (h : ∀ a ∈ l, ∀ s, f s a = g s a) (s : β) : l.foldlM f s = l.foldlM g s := by
  induction l generalizing s with
  | nil => rfl
  | cons a l ih =>
    obtain ⟨ha, hl⟩ := List.forall_mem_cons.mp h
    rw [List.foldlM_cons, List.foldlM_cons, ha s]
    exact congrArg _ (funext fun s => ih hl s)

theorem scan_eq_of_plain (qsort : (Book → Book → ℤ) → List Book → List Book)
    (h : content.Plain) (memory : ℕ → Bool) :
    scan qsort (content.source dir .types memory) dir =
      scan qsort (content.source dir .unknown memory) dir := by
  have hloop : ∀ s, (content.nodes.map (Node.dirent .types)).foldlM
      (scanEntry (content.source dir .types memory) dir) s =
      (content.nodes.map (Node.dirent .unknown)).foldlM
        (scanEntry (content.source dir .unknown memory) dir) s := by
    intro s
    rw [List.foldlM_map, List.foldlM_map]
    exact foldlM_congr_left _ (fun node hnode s => scanEntry_dirent h memory hnode s) s
  have hrun := hloop (new, 1)
  unfold scan
  exact if_congr Iff.rfl rfl (congrArg _ hrun)

/-- A book is listed exactly where its entry is. -/
theorem bookAt_mem_iff {reporting : Reporting} {memory : ℕ → Bool} {node : Node}
    (hnode : node ∈ content.nodes) {fmt : BookFormat} (hname : bookName node.name = some fmt) :
    bookAt dir node.name fmt ∈ (content.nodes.map (Node.dirent reporting)).filterMap
        (bookOf (content.source dir reporting memory) dir) ↔
      listable (content.source dir reporting memory) (pathOf dir node.name)
        (node.dirent reporting).dType = true := by
  rw [List.filterMap_map, List.mem_filterMap]
  constructor
  · rintro ⟨other, hother, hbook⟩
    rw [Function.comp_apply, bookOf_dirent] at hbook
    obtain ⟨fmt', -, hbook⟩ := Option.bind_eq_some_iff.mp hbook
    split_ifs at hbook with hlist
    have hsame : other.name = node.name := congrArg Book.filename (Option.some.inj hbook)
    obtain rfl := List.inj_on_of_nodup_map content.nodup hother hnode hsame
    exact hlist
  · intro hlist
    refine ⟨node, hnode, ?_⟩
    rw [Function.comp_apply, bookOf_dirent, hname, Option.bind_some, if_pos hlist]

/-- **When the types of the entries make no difference.** -/
theorem source_types_iff {qsort : (Book → Book → ℤ) → List Book → List Book}
    (hqsort : Sorts qsort) (content : Content) (dir : List UInt8) :
    (∀ memory, scan qsort (content.source dir .types memory) dir =
      scan qsort (content.source dir .unknown memory) dir) ↔ content.Plain := by
  refine ⟨fun h => ?_, fun h => scan_eq_of_plain qsort h⟩
  intro node hnode hsome
  obtain ⟨fmt, hname⟩ := Option.isSome_iff_exists.mp hsome
  have hmemory : ∀ reporting : Reporting,
      ∀ k, (content.source dir reporting fun _ => true).memory k = true := fun _ _ => rfl
  obtain ⟨lib, hscan⟩ := scan_isSome qsort rfl (hmemory .types) dir
  have hscan' := (h fun _ => true).symm.trans hscan
  have hbooks := (scan_lists hqsort rfl hscan).1
  have hbooks' := (scan_lists hqsort rfl hscan').1
  have hmem := (hbooks.symm.trans hbooks').mem_iff (a := bookAt dir node.name fmt)
  rw [bookAt_mem_iff hnode hname, bookAt_mem_iff hnode hname, listable_types,
    listable_unknown hnode] at hmem
  exact hmem

/-- A directory with a book, a directory that is named like one, and a link to a directory. -/
def sampleShelf : Content where
  nodes := [⟨ascii "a.txt", .regular, some .regular, fun _ _ h => (Option.some.inj h).symm⟩,
    ⟨ascii "b.txt", .directory, some .directory, fun _ _ h => (Option.some.inj h).symm⟩,
    ⟨ascii "c.txt", .symlink, some .directory, fun h => absurd rfl h⟩]
  nodup := by decide

theorem source_types_sampleShelf :
    scan (fun cmp => List.insertionSort fun a b => cmp a b ≤ 0)
        (sampleShelf.source (ascii "/b") .types fun _ => true) (ascii "/b") =
      scan (fun cmp => List.insertionSort fun a b => cmp a b ≤ 0)
        (sampleShelf.source (ascii "/b") .unknown fun _ => true) (ascii "/b") := by
  refine (source_types_iff Comparator.sorts_insertionSort sampleShelf (ascii "/b")).mpr ?_ _
  intro node hnode _
  simp only [sampleShelf, List.mem_cons, List.not_mem_nil, or_false] at hnode
  rcases hnode with rfl | rfl | rfl <;> simp

/-- A directory with a link to a book outside. -/
def linkedBook : Content where
  nodes := [⟨ascii "a.txt", .symlink, some .regular, fun h => absurd rfl h⟩]
  nodup := List.nodup_singleton _

/-- The link is listed only where its type is not reported. -/
theorem linkedBook_scans :
    scan (fun cmp => List.insertionSort fun a b => cmp a b ≤ 0)
        (linkedBook.source (ascii "/b") .types fun _ => true) (ascii "/b") = some ⟨[], 0⟩ ∧
      scan (fun cmp => List.insertionSort fun a b => cmp a b ≤ 0)
        (linkedBook.source (ascii "/b") .unknown fun _ => true) (ascii "/b") =
        some ⟨[bookAt (ascii "/b") (ascii "a.txt") .txt], 8⟩ := by
  constructor <;> decide +kernel

end BookLibrary
