import CrossNook.Text.Bytes
import CrossNook.Text.Comparator
import CrossNook.Text.Loop
import CrossNook.UI.Book

/-!
# The library

The scan of a directory for books (`library/library.c`): which names are books, in what order the
books are listed, and what the list is for a directory whose entries come in any order.

A string is the list of its bytes ahead of the terminator. The type of a directory entry, what
`stat` says of a path and whether an allocation succeeds are given with the directory.

## Main definitions

* `BookLibrary.bookCmp`: `book_cmp`
* `BookLibrary.scan`: `cn_library_scan`
* `BookLibrary.bookOf`: the book that an entry of the directory stands for

## Main results

* `BookLibrary.bookCmp_consistent`: the comparison belongs to a total order on books
* `BookLibrary.scan_lists`: the scan lists the books of the directory in order
* `BookLibrary.listing_order`: whatever the order of the entries
-/

namespace BookLibrary

open Bytes (ascii)
open Comparator (Consistent Ordered Sorts)

/-- `cn_book`. -/
@[ext]
structure Book where
  path : List UInt8
  filename : List UInt8
  title : List UInt8
  format : BookFormat
  deriving DecidableEq, Repr

/-- `cn_library`; `count` is the number of the books. -/
structure Library where
  books : List Book
  cap : ℕ
  deriving DecidableEq, Repr

/-- `CAP_INIT`. -/
def capInit : ℕ := 8

/-! ## Strings -/

/-- `ascii_lower`, on a byte. -/
def asciiLower (c : UInt8) : UInt8 := if 0x41 ≤ c ∧ c ≤ 0x5a then c + (0x61 - 0x41) else c

/-- `strieq`. -/
def strieq : List UInt8 → List UInt8 → Bool
  | a :: as, b :: bs => if asciiLower a ≠ asciiLower b then false else strieq as bs
  | [], [] => true
  | _, _ => false

/-- `strieq_end`. -/
def strieqEnd (s suffix : List UInt8) : Bool :=
  if s.length < suffix.length then false else strieq (s.drop (s.length - suffix.length)) suffix

/-- `strrchr`: the bytes before and after the last `c`. -/
def strrchr (c : UInt8) (s : List UInt8) : Option (List UInt8 × List UInt8) :=
  if c ∈ s then
    let after := (s.reverse.takeWhile fun b => b ≠ c).length
    some (s.take (s.length - after - 1), s.drop (s.length - after))
  else none

/-- `format_of`. -/
def formatOf (name : List UInt8) : Option BookFormat :=
  match strrchr 0x2e name with
  | none => none
  | some (before, after) =>
    if before = [] ∨ after = [] then none
    else if strieq after (ascii "epub") then some .epub
    else if strieq after (ascii "fb2") then some .fb2
    else if strieq after (ascii "txt") then some .txt
    else none

/-- `is_temp_file`. -/
def isTempFile (name : List UInt8) : Bool :=
  if 0x23 ∈ name then true
  else if name.getLast? = some 0x7e then true
  else if strieqEnd name (ascii ".tmp") then true
  else false

/-- `title_of`. -/
def titleOf (filename : List UInt8) : List UInt8 :=
  match strrchr 0x2e filename with
  | none => filename
  | some (before, _) => before

/-! ## The comparison -/

/-- `fold_next`: the folded value of the next character and the rest. -/
def foldNext : List UInt8 → ℤ × List UInt8
  | [] => (-1, [])
  | [c] => if c < 0x80 then ((asciiLower c).toNat, []) else (c.toNat, [])
  | c :: b :: rest =>
    if c < 0x80 then ((asciiLower c).toNat, b :: rest)
    else if c = 0xd0 then
      if b = 0x81 then (0x451, rest)
      else if 0x90 ≤ b ∧ b ≤ 0xaf then (0x430 + (b.toNat - 0x90), rest)
      else if 0xb0 ≤ b ∧ b ≤ 0xbf then (0x430 + (b.toNat - 0xb0), rest)
      else (0xd000 + b.toNat, rest)
    else if c = 0xd1 then
      if 0x80 ≤ b ∧ b ≤ 0x8f then (0x440 + (b.toNat - 0x80), rest)
      else if b = 0x91 then (0x451, rest)
      else (0xd100 + b.toNat, rest)
    else (c.toNat, b :: rest)

/-- One turn of the loop of `fold_cmp`. -/
def foldTurn : List UInt8 × List UInt8 → Loop.Turn (List UInt8 × List UInt8) ℤ
  | (a, b) =>
    let fa := foldNext a
    let fb := foldNext b
    if fa.1 ≠ fb.1 then .done (if fa.1 < fb.1 then -1 else 1)
    else if fa.1 < 0 then .done 0
    else .next (fa.2, fb.2)

/-- `fold_cmp`. -/
def foldCmp (a b : List UInt8) : ℤ := Loop.loop foldTurn 0 (fun s => s.1.length) (a, b)

/-- The sign of `strcmp`, which compares bytes as unsigned numbers. -/
def strcmp (a b : List UInt8) : ℤ := Comparator.lex (a.map UInt8.toNat) (b.map UInt8.toNat)

/-- `book_cmp`. -/
def bookCmp (a b : Book) : ℤ :=
  let c := foldCmp a.title b.title
  if c ≠ 0 then c
  else
    let c := strcmp a.title b.title
    if c ≠ 0 then c else strcmp a.filename b.filename

/-! ## The directory -/

/-- The types of files. -/
inductive FileType
  | regular
  | directory
  | symlink
  | fifo
  | socket
  | charDevice
  | blockDevice
  deriving DecidableEq, Repr

/-- `d_type` of a directory entry: `DT_UNKNOWN`, or the type of the file. -/
abbrev DType := Option FileType

/-- `struct dirent`. -/
structure Dirent where
  name : List UInt8
  dType : DType
  deriving DecidableEq, Repr

/-- What a scan is given: the entries that `readdir` delivers, unless the directory does not open;
the type of the file that `stat` finds at a path; and which of the allocations succeed. -/
structure Source where
  entries : Option (List Dirent)
  stat : List UInt8 → Option FileType
  memory : ℕ → Bool

/-- `is_directory`. -/
def isDirectory (source : Source) (path : List UInt8) : ℤ :=
  match source.stat path with
  | none => -1
  | some type => if type = .directory then 1 else 0

/-! ## The scan -/

/-- `cn_library_new`. -/
def new : Library := ⟨[], 0⟩

/-- `cn_library_add`, after `n` allocations; `none` where one fails. -/
def add (memory : ℕ → Bool) (path filename : List UInt8) (format : BookFormat) :
    Library × ℕ → Option (Library × ℕ)
  | (lib, n) => do
    let (lib, n) ←
      if lib.books.length = lib.cap then
        if memory n then
          some ({ lib with cap := if lib.cap ≠ 0 then lib.cap * 2 else capInit }, n + 1)
        else none
      else some (lib, n)
    -- the path, the name and the title
    if memory n ∧ memory (n + 1) ∧ memory (n + 2) then
      some ({ lib with books := lib.books ++ [⟨path, filename, titleOf filename, format⟩] }, n + 3)
    else none

/-- The path of an entry. -/
def pathOf (dir name : List UInt8) : List UInt8 := dir ++ 0x2f :: name

/-- One turn of the loop of `cn_library_scan`. -/
def scanEntry (source : Source) (dir : List UInt8) (s : Library × ℕ) (de : Dirent) :
    Option (Library × ℕ) :=
  -- hidden files and temporary ones are no books
  if de.name.head? = some 0x2e then some s
  else if isTempFile de.name then some s
  else
    match formatOf de.name with
    | none => some s
    | some fmt =>
      if ¬ source.memory s.2 then none
      else
        let path := pathOf dir de.name
        let s := (s.1, s.2 + 1)
        if de.dType = some .directory then some s
        -- a file system that does not tell the type is asked with `stat`
        else if de.dType = none then
          let st := isDirectory source path
          if st < 0 ∨ st = 1 then some s else add source.memory path de.name fmt s
        else if de.dType ≠ some .regular then some s
        else add source.memory path de.name fmt s

/-- `cn_library_resort`. -/
def resort (qsort : (Book → Book → ℤ) → List Book → List Book) (lib : Library) : Library :=
  if 1 < lib.books.length then { lib with books := qsort bookCmp lib.books } else lib

/-- `cn_library_scan`. -/
def scan (qsort : (Book → Book → ℤ) → List Book → List Book) (source : Source)
    (dir : List UInt8) : Option Library :=
  match source.entries with
  | none => none
  | some entries =>
    if ¬ source.memory 0 then none
    else (entries.foldlM (scanEntry source dir) (new, 1)).map fun s => resort qsort s.1

/-! ## The comparison is an order -/

/-- The folded values of a title. -/
def foldKeys : List UInt8 → List ℤ
  | [] => []
  | [c] => [(foldNext [c]).1]
  | c :: b :: rest =>
    if c = 0xd0 ∨ c = 0xd1 then (foldNext (c :: b :: rest)).1 :: foldKeys rest
    else (foldNext (c :: b :: rest)).1 :: foldKeys (b :: rest)

theorem foldNext_nonneg (c : UInt8) (s : List UInt8) : 0 ≤ (foldNext (c :: s)).1 := by
  cases s <;> simp only [foldNext] <;> split_ifs <;> simp <;> omega

theorem foldKeys_cons (c : UInt8) (s : List UInt8) :
    foldKeys (c :: s) = (foldNext (c :: s)).1 :: foldKeys (foldNext (c :: s)).2 := by
  cases s with
  | nil =>
    rw [foldKeys, foldNext]
    split_ifs <;> rfl
  | cons b rest =>
    rw [foldKeys]
    by_cases hc : c = 0xd0 ∨ c = 0xd1
    · have hrest : (foldNext (c :: b :: rest)).2 = rest := by
        rcases hc with rfl | rfl <;> simp only [foldNext] <;> split_ifs <;> simp_all
      rw [if_pos hc, hrest]
    · have hrest : (foldNext (c :: b :: rest)).2 = b :: rest := by
        rw [not_or] at hc
        rw [foldNext, if_neg hc.1, if_neg hc.2]
        split_ifs <;> rfl
      rw [if_neg hc, hrest]

theorem foldNext_shorter (c : UInt8) (s : List UInt8) :
    (foldNext (c :: s)).2.length < (c :: s).length := by
  cases s <;> simp only [foldNext] <;> split_ifs <;> simp

theorem foldTurn_shrinks : Loop.Shrinks foldTurn fun s => s.1.length := by
  rintro ⟨a, b⟩ ⟨a', b'⟩ h
  simp only [foldTurn] at h
  split_ifs at h with hne hneg
  obtain ⟨rfl, rfl⟩ := Prod.mk.inj (Loop.Turn.next.inj h)
  cases a with
  | nil => exact absurd (by decide) hneg
  | cons c s => exact foldNext_shorter c s

/-- **`fold_cmp` compares the folded values.** -/
theorem foldCmp_eq (a b : List UInt8) :
    foldCmp a b = Comparator.lex (foldKeys a) (foldKeys b) := by
  unfold foldCmp
  induction hn : a.length using Nat.strong_induction_on generalizing a b with
  | _ n ih =>
    -- a value that ends first reads -1, which is below every folded scalar
    cases a with
    | nil =>
      cases b with
      | nil => exact Loop.loop_of_done foldTurn_shrinks rfl
      | cons c t =>
        have hpos := foldNext_nonneg c t
        have hturn : foldTurn ([], c :: t) = .done (-1) := by
          simp only [foldTurn]
          rw [if_pos (by rw [foldNext]; dsimp only; omega),
            if_pos (by rw [foldNext]; dsimp only; omega)]
        rw [Loop.loop_of_done foldTurn_shrinks hturn, foldKeys_cons]
        rfl
    | cons c s =>
      have hpos := foldNext_nonneg c s
      cases b with
      | nil =>
        have hturn : foldTurn (c :: s, []) = .done 1 := by
          have hnil : (foldNext []).1 = -1 := rfl
          simp only [foldTurn, hnil]
          rw [if_pos (by omega), if_neg (by omega)]
        rw [Loop.loop_of_done foldTurn_shrinks hturn, foldKeys_cons]
        rfl
      | cons d t =>
        rw [foldKeys_cons, foldKeys_cons, Comparator.lex]
        by_cases heq : (foldNext (c :: s)).1 = (foldNext (d :: t)).1
        · have hturn : foldTurn (c :: s, d :: t) =
              .next ((foldNext (c :: s)).2, (foldNext (d :: t)).2) := by
            simp only [foldTurn]
            rw [if_neg (not_not.mpr heq), if_neg (by omega)]
          rw [Loop.loop_of_next foldTurn_shrinks hturn, if_pos heq]
          exact ih _ (hn ▸ foldNext_shorter c s) _ _ rfl
        · have hturn : foldTurn (c :: s, d :: t) =
              .done (if (foldNext (c :: s)).1 < (foldNext (d :: t)).1 then -1 else 1) := by
            simp only [foldTurn]
            rw [if_pos heq]
          rw [Loop.loop_of_done foldTurn_shrinks hturn, if_neg heq]

theorem strcmp_consistent : Consistent strcmp := Comparator.lex_consistent.comap _

theorem strcmp_eq_zero_iff {a b : List UInt8} : strcmp a b = 0 ↔ a = b := by
  rw [strcmp, Comparator.lex_eq_zero_iff]
  exact (List.map_injective_iff.mpr fun _ _ => UInt8.toNat_inj.mp).eq_iff

theorem foldCmp_consistent : Consistent foldCmp := by
  have h : foldCmp = fun a b => Comparator.lex (foldKeys a) (foldKeys b) :=
    funext fun a => funext fun b => foldCmp_eq a b
  rw [h]
  exact Comparator.lex_consistent.comap foldKeys

theorem bookCmp_eq : bookCmp =
    Comparator.orElse (fun a b => foldCmp a.title b.title)
      (Comparator.orElse (fun a b => strcmp a.title b.title)
        fun a b => strcmp a.filename b.filename) := by
  funext a b
  rfl

/-- **The comparison is consistent.** -/
theorem bookCmp_consistent : Consistent bookCmp := by
  rw [bookCmp_eq]
  exact (foldCmp_consistent.comap Book.title).orElse
    ((strcmp_consistent.comap Book.title).orElse (strcmp_consistent.comap Book.filename))

theorem bookCmp_eq_zero_iff {a b : Book} :
    bookCmp a b = 0 ↔ a.title = b.title ∧ a.filename = b.filename := by
  rw [bookCmp_eq, Comparator.orElse_eq_zero, Comparator.orElse_eq_zero, strcmp_eq_zero_iff,
    strcmp_eq_zero_iff]
  refine ⟨fun h => h.2, fun h => ⟨?_, h⟩⟩
  rw [h.1]
  exact foldCmp_consistent.refl _

/-! ## What a scan lists -/

/-- An entry of this type is a book: where the type is not known, `stat` decides. -/
def listable (source : Source) (path : List UInt8) (dType : DType) : Bool :=
  match dType with
  | some type => type = .regular
  | none => isDirectory source path = 0

/-- The format of a book by this name, if it is the name of a book. -/
def bookName (name : List UInt8) : Option BookFormat :=
  if name.head? = some 0x2e ∨ isTempFile name = true then none else formatOf name

/-- The book of this name in the directory. -/
def bookAt (dir name : List UInt8) (fmt : BookFormat) : Book :=
  ⟨pathOf dir name, name, titleOf name, fmt⟩

/-- The book that an entry stands for. -/
def bookOf (source : Source) (dir : List UInt8) (de : Dirent) : Option Book :=
  (bookName de.name).bind fun fmt =>
    if listable source (pathOf dir de.name) de.dType then some (bookAt dir de.name fmt) else none

variable {source : Source} {dir : List UInt8} {de : Dirent}

theorem scanEntry_of_not_bookName (h : bookName de.name = none) (s : Library × ℕ) :
    scanEntry source dir s de = some s := by
  unfold bookName at h
  split_ifs at h with hname
  · rcases hname with hhidden | htemp
    · rw [scanEntry, if_pos hhidden]
    · rw [scanEntry, if_pos htemp, ite_self]
  · rw [not_or] at hname
    rw [scanEntry, if_neg hname.1, if_neg hname.2, h]

theorem scanEntry_of_bookName {fmt : BookFormat} (h : bookName de.name = some fmt)
    (lib : Library) (n : ℕ) :
    scanEntry source dir (lib, n) de =
      if ¬ source.memory n then none
      else if listable source (pathOf dir de.name) de.dType then
        add source.memory (pathOf dir de.name) de.name fmt (lib, n + 1)
      else some (lib, n + 1) := by
  unfold bookName at h
  split_ifs at h with hname
  rw [not_or] at hname
  rw [scanEntry, if_neg hname.1, if_neg hname.2, h]
  refine if_congr Iff.rfl rfl ?_
  cases de.dType with
  | none =>
    have hstat : isDirectory source (pathOf dir de.name) = -1 ∨
        isDirectory source (pathOf dir de.name) = 1 ∨
        isDirectory source (pathOf dir de.name) = 0 := by
      unfold isDirectory
      cases source.stat (pathOf dir de.name) with
      | none => exact .inl rfl
      | some type => by_cases ht : type = .directory <;> simp [ht]
    simp only [listable]
    rcases hstat with hstat | hstat | hstat <;> simp [hstat]
  | some type => cases type <;> rfl

/-- Adding a book appends it, unless memory runs out. -/
theorem add_cases (memory : ℕ → Bool) (path filename : List UInt8) (fmt : BookFormat)
    (lib : Library) (n : ℕ) :
    (add memory path filename fmt (lib, n) = none ∧ ∃ k, memory k = false) ∨
      ∃ cap m, add memory path filename fmt (lib, n) =
        some (⟨lib.books ++ [⟨path, filename, titleOf filename, fmt⟩], cap⟩, m) := by
  have hstrings : ∀ k, ¬ (memory k = true ∧ memory (k + 1) = true ∧ memory (k + 2) = true) →
      ∃ k, memory k = false := by
    intro k hk
    by_contra hall
    simp only [not_exists, Bool.not_eq_false] at hall
    exact hk ⟨hall _, hall _, hall _⟩
  rw [add]
  by_cases hfull : lib.books.length = lib.cap
  · rw [if_pos hfull]
    by_cases hgrow : memory n = true
    · rw [if_pos hgrow, Option.bind_eq_bind, Option.bind_some]
      by_cases hs : memory (n + 1) = true ∧ memory (n + 2) = true ∧ memory (n + 3) = true
      · exact .inr ⟨_, _, if_pos hs⟩
      · exact .inl ⟨if_neg hs, hstrings _ hs⟩
    · rw [if_neg hgrow]
      exact .inl ⟨rfl, n, Bool.eq_false_of_not_eq_true hgrow⟩
  · rw [if_neg hfull, Option.bind_eq_bind, Option.bind_some]
    by_cases hs : memory n = true ∧ memory (n + 1) = true ∧ memory (n + 2) = true
    · exact .inr ⟨_, _, if_pos hs⟩
    · exact .inl ⟨if_neg hs, hstrings _ hs⟩

/-- **A turn of the scan** appends the book of the entry, unless memory runs out. -/
theorem scanEntry_cases (source : Source) (dir : List UInt8) (s : Library × ℕ) (de : Dirent) :
    (scanEntry source dir s de = none ∧ ∃ k, source.memory k = false) ∨
      ∃ s', scanEntry source dir s de = some s' ∧
        s'.1.books = s.1.books ++ (bookOf source dir de).toList := by
  obtain ⟨lib, n⟩ := s
  cases hname : bookName de.name with
  | none =>
    refine .inr ⟨(lib, n), scanEntry_of_not_bookName hname _, ?_⟩
    rw [bookOf, hname]
    exact (List.append_nil _).symm
  | some fmt =>
    rw [scanEntry_of_bookName hname, bookOf, hname, Option.bind_some]
    by_cases hmem : source.memory n = true
    · rw [if_neg (not_not.mpr hmem)]
      by_cases hlist : listable source (pathOf dir de.name) de.dType = true
      · rw [if_pos hlist, if_pos hlist]
        rcases add_cases source.memory (pathOf dir de.name) de.name fmt lib (n + 1) with
          hfail | ⟨cap, m, hadd⟩
        · exact .inl hfail
        · exact .inr ⟨_, hadd, rfl⟩
      · rw [if_neg hlist, if_neg hlist]
        exact .inr ⟨_, rfl, (List.append_nil _).symm⟩
    · exact .inl ⟨if_pos hmem, n, Bool.eq_false_of_not_eq_true hmem⟩

/-- **The loop of the scan** collects the books of the entries, unless memory runs out. -/
theorem foldlM_scanEntry (source : Source) (dir : List UInt8) (entries : List Dirent)
    (s : Library × ℕ) :
    (entries.foldlM (scanEntry source dir) s = none ∧ ∃ k, source.memory k = false) ∨
      ∃ s', entries.foldlM (scanEntry source dir) s = some s' ∧
        s'.1.books = s.1.books ++ entries.filterMap (bookOf source dir) := by
  induction entries generalizing s with
  | nil => exact .inr ⟨s, rfl, (List.append_nil _).symm⟩
  | cons de entries ih =>
    rw [List.foldlM_cons]
    rcases scanEntry_cases source dir s de with ⟨hstep, hfail⟩ | ⟨s', hstep, hbooks⟩
    · rw [hstep]
      exact .inl ⟨rfl, hfail⟩
    · rw [hstep, Option.bind_eq_bind, Option.bind_some]
      rcases ih s' with hfail | ⟨s'', hrun, hrest⟩
      · exact .inl hfail
      · refine .inr ⟨s'', hrun, ?_⟩
        rw [hrest, hbooks, List.append_assoc, List.filterMap_cons]
        cases bookOf source dir de <;> rfl

section Listing

variable {qsort : (Book → Book → ℤ) → List Book → List Book} {entries : List Dirent}
  {lib : Library}

theorem resort_perm (hqsort : Sorts qsort) (lib : Library) :
    (resort qsort lib).books.Perm lib.books := by
  unfold resort
  split_ifs
  · exact (hqsort bookCmp bookCmp_consistent lib.books).1
  · exact .refl _

theorem resort_ordered (hqsort : Sorts qsort) (lib : Library) :
    Ordered bookCmp (resort qsort lib).books := by
  unfold resort
  split_ifs with h
  · exact (hqsort bookCmp bookCmp_consistent lib.books).2
  · rcases hbooks : lib.books with _ | ⟨a, _ | ⟨b, rest⟩⟩
    · exact List.Pairwise.nil
    · exact List.pairwise_singleton _ _
    · rw [hbooks] at h
      exact absurd (by simp) h

/-- A scan either runs out of memory, or lists the books of the entries. -/
theorem scan_cases (qsort : (Book → Book → ℤ) → List Book → List Book)
    (hentries : source.entries = some entries) (dir : List UInt8) :
    (scan qsort source dir = none ∧ ∃ k, source.memory k = false) ∨
      ∃ lib, scan qsort source dir = some (resort qsort lib) ∧
        lib.books = entries.filterMap (bookOf source dir) := by
  rw [scan, hentries]
  dsimp only
  by_cases hmem : source.memory 0 = true
  · rw [if_neg (not_not.mpr hmem)]
    rcases foldlM_scanEntry source dir entries (new, 1) with ⟨hrun, hfail⟩ | ⟨s, hrun, hbooks⟩
    · rw [hrun]
      exact .inl ⟨rfl, hfail⟩
    · rw [hrun]
      exact .inr ⟨s.1, rfl, hbooks⟩
  · exact .inl ⟨if_pos hmem, 0, Bool.eq_false_of_not_eq_true hmem⟩

/-- What a scan lists. -/
theorem scan_lists (hqsort : Sorts qsort) (hentries : source.entries = some entries)
    (h : scan qsort source dir = some lib) :
    lib.books.Perm (entries.filterMap (bookOf source dir)) ∧ Ordered bookCmp lib.books := by
  rcases scan_cases qsort hentries dir with ⟨hscan, -⟩ | ⟨unsorted, hscan, hbooks⟩
  · rw [hscan] at h
    cases h
  · obtain rfl := Option.some.inj (hscan.symm.trans h)
    rw [← hbooks]
    exact ⟨resort_perm hqsort unsorted, resort_ordered hqsort unsorted⟩

/-- Books of one directory with the same file name are equal. -/
theorem eq_of_bookOf {de de' : Dirent} {a b : Book} {source' : Source}
    (ha : bookOf source dir de = some a) (hb : bookOf source' dir de' = some b)
    (h : a.filename = b.filename) : a = b := by
  have hshape : ∀ {source : Source} {de : Dirent} {a : Book}, bookOf source dir de = some a →
      ∃ fmt, bookName a.filename = some fmt ∧ a = bookAt dir a.filename fmt := by
    intro source de a ha
    obtain ⟨fmt, hname, ha⟩ := Option.bind_eq_some_iff.mp ha
    split_ifs at ha
    obtain rfl := Option.some.inj ha
    exact ⟨fmt, hname, rfl⟩
  obtain ⟨fmt, hname, ha⟩ := hshape ha
  obtain ⟨fmt', hname', hb⟩ := hshape hb
  rw [h, hname'] at hname
  obtain rfl := Option.some.inj hname
  rw [ha, hb, h]

/-- Ordered listings of the same books are equal. -/
theorem books_eq_of_perm {books books' : List Book} (hordered : Ordered bookCmp books)
    (hordered' : Ordered bookCmp books') (hperm : books.Perm books')
    (hbooks : books.Perm (entries.filterMap (bookOf source dir))) : books = books' := by
  refine hordered.eq_of_perm bookCmp_consistent hordered' hperm ?_
  intro a ha b hb hcmp
  obtain ⟨de, -, ha⟩ := List.mem_filterMap.mp (hbooks.mem_iff.mp ha)
  obtain ⟨de', -, hb⟩ := List.mem_filterMap.mp (hbooks.mem_iff.mp hb)
  exact eq_of_bookOf ha hb (bookCmp_eq_zero_iff.mp hcmp).2

/-- The same directory, read in another order and with other memory. -/
def Source.reorder (source : Source) (entries : List Dirent) (memory : ℕ → Bool) : Source :=
  { source with entries := some entries, memory := memory }

theorem scan_reorder (hqsort : Sorts qsort) (hentries : source.entries = some entries)
    {entries' : List Dirent} (hperm : entries.Perm entries') (memory : ℕ → Bool)
    {lib' : Library} (h : scan qsort source dir = some lib)
    (h' : scan qsort (source.reorder entries' memory) dir = some lib') :
    lib'.books = lib.books := by
  obtain ⟨hbooks, hordered⟩ := scan_lists hqsort hentries h
  obtain ⟨hbooks', hordered'⟩ := scan_lists hqsort rfl h'
  have hsame : (entries'.filterMap (bookOf (source.reorder entries' memory) dir)) =
      entries'.filterMap (bookOf source dir) := rfl
  rw [hsame] at hbooks'
  have hlists := hbooks.trans ((hperm.filterMap _).trans hbooks'.symm)
  exact (books_eq_of_perm hordered hordered' hlists hbooks).symm

/-- A scan that has the memory it needs lists the directory. -/
theorem scan_isSome (qsort : (Book → Book → ℤ) → List Book → List Book)
    (hentries : source.entries = some entries) (hmemory : ∀ k, source.memory k = true)
    (dir : List UInt8) : ∃ lib, scan qsort source dir = some lib := by
  rcases scan_cases qsort hentries dir with ⟨-, k, hk⟩ | ⟨lib, hscan, -⟩
  · rw [hmemory k] at hk
    cases hk
  · exact ⟨_, hscan⟩

/-- **Library order.** -/
theorem listing_order (hqsort : Sorts qsort) :
    Consistent bookCmp ∧ (∀ a, bookCmp a a = 0) ∧
    (∀ a b, bookCmp a b ≤ 0 → bookCmp b a ≤ 0 → a.title = b.title ∧ a.filename = b.filename) ∧
    (∀ a b c, bookCmp a b ≤ 0 → bookCmp b c ≤ 0 → bookCmp a c ≤ 0) ∧
    (∀ a b, bookCmp a b ≤ 0 ∨ bookCmp b a ≤ 0) ∧
    (∀ (source : Source) (dir : List UInt8) entries lib, source.entries = some entries →
      scan qsort source dir = some lib →
      lib.books.Perm (entries.filterMap (bookOf source dir)) ∧ Ordered bookCmp lib.books ∧
      ∀ entries' memory lib', entries.Perm entries' →
        scan qsort (source.reorder entries' memory) dir = some lib' → lib'.books = lib.books) ∧
    ∀ (source : Source) (dir : List UInt8) entries, source.entries = some entries →
      (∀ k, source.memory k = true) → ∃ lib, scan qsort source dir = some lib := by
  refine ⟨bookCmp_consistent, bookCmp_consistent.refl, ?_, bookCmp_consistent.trans,
    bookCmp_consistent.total, ?_, ?_⟩
  · intro a b hab hba
    have := (bookCmp_consistent.le_zero_iff b a).mp hba
    exact bookCmp_eq_zero_iff.mp (by omega)
  · intro source dir entries lib hentries hscan
    obtain ⟨hbooks, hordered⟩ := scan_lists hqsort hentries hscan
    refine ⟨hbooks, hordered, ?_⟩
    intro entries' memory lib' hperm hscan'
    exact scan_reorder hqsort hentries hperm memory hscan hscan'
  · intro source dir entries hentries hmemory
    exact scan_isSome qsort hentries hmemory dir

end Listing

/-- A directory of two books, the second of which comes first in the library. -/
def twoBooks : Source where
  entries := some [⟨ascii "b.txt", some .regular⟩, ⟨ascii "A.epub", some .regular⟩]
  stat := fun _ => none
  memory := fun _ => true

/-- The library of the two books, sorted by insertion. -/
theorem listing_order_twoBooks :
    ∃ lib, scan (fun cmp => List.insertionSort fun a b => cmp a b ≤ 0) twoBooks (ascii "/b") =
        some lib ∧
      lib.books = [bookAt (ascii "/b") (ascii "A.epub") .epub,
        bookAt (ascii "/b") (ascii "b.txt") .txt] ∧ Ordered bookCmp lib.books := by
  refine ⟨_, rfl, by decide +kernel, ?_⟩
  exact ((listing_order Comparator.sorts_insertionSort).2.2.2.2.2.1 twoBooks (ascii "/b") _ _ rfl
    rfl).2.1

end BookLibrary
