import Mathlib.Data.List.Nodup
import Mathlib.Data.List.Perm.Basic
import Mathlib.Data.List.Sort
import Mathlib.Tactic.Ring

/-!
# Walks along pages

A listing is cut into pages, and each page hands out a cursor for the next one.  Following
the cursors returns every row once exactly when, after each page that is cut off, the rows
that are found for the cursor are the rows that remain.  A call may depend on how many calls
were made before it, as a call that reads a clock does.
-/

namespace StellarSettle.PageWalk

variable {Row Cursor Error : Type*}

/-- A page of a listing, and the cursor that it hands out. -/
structure Page (Row Cursor : Type*) where
  items : List Row
  next : Option Cursor
  deriving DecidableEq

/-- Following the cursors ends, with these pages. -/
inductive Walk (serve : ℕ → Option Cursor → Except Error (Page Row Cursor)) :
    ℕ → Option Cursor → List (List Row) → Prop
  | last {call cursor page} (hpage : serve call cursor = .ok page) (hnext : page.next = none) :
      Walk serve call cursor [page.items]
  | more {call cursor page next pages} (hpage : serve call cursor = .ok page)
      (hnext : page.next = some next) (hrest : Walk serve (call + 1) (some next) pages) :
      Walk serve call cursor (page.items :: pages)

section Walks

variable {serve : ℕ → Option Cursor → Except Error (Page Row Cursor)} {rows : List Row}

/-- From the first page on, the walk ends and returns each row once. -/
def ReturnsOnce (serve : ℕ → Option Cursor → Except Error (Page Row Cursor))
    (rows : List Row) : Prop :=
  ∃ pages, Walk serve 0 none pages ∧ pages.flatten.Perm rows

/-- From the first page on, the walk ends and returns the rows in their order. -/
def ReturnsInOrder (serve : ℕ → Option Cursor → Except Error (Page Row Cursor))
    (rows : List Row) : Prop :=
  ∃ pages, Walk serve 0 none pages ∧ pages.flatten = rows

theorem ReturnsInOrder.once (horder : ReturnsInOrder serve rows) : ReturnsOnce serve rows := by
  obtain ⟨pages, hwalk, hsame⟩ := horder
  exact ⟨pages, hwalk, List.Perm.of_eq hsame⟩

/-- It does not matter in which order the rows are given. -/
theorem returnsOnce_congr {others : List Row} (hsame : rows.Perm others) :
    ReturnsOnce serve rows ↔ ReturnsOnce serve others := by
  constructor
  · rintro ⟨pages, hwalk, hpages⟩
    exact ⟨pages, hwalk, hpages.trans hsame⟩
  · rintro ⟨pages, hwalk, hpages⟩
    exact ⟨pages, hwalk, hpages.trans hsame.symm⟩

/-- The same calls return the same pages. -/
theorem Walk.unique {call : ℕ} {cursor : Option Cursor} {left right : List (List Row)}
    (hleft : Walk serve call cursor left) (hright : Walk serve call cursor right) :
    left = right := by
  induction hleft generalizing right with
  | last hpage hnext =>
      cases hright with
      | last hother _ =>
          rw [hpage] at hother
          rw [Except.ok.inj hother]
      | more hother hmore _ =>
          rw [hpage] at hother
          rw [← Except.ok.inj hother, hnext] at hmore
          cases hmore
  | more hpage hnext _ ih =>
      cases hright with
      | last hother hlast =>
          rw [hpage] at hother
          rw [← Except.ok.inj hother, hnext] at hlast
          cases hlast
      | more hother hmore hrest =>
          rw [hpage] at hother
          obtain rfl := Except.ok.inj hother
          rw [hnext, Option.some_inj] at hmore
          subst hmore
          rw [ih hrest]

/-- The pages of so many calls, where the last of them is a last page. -/
def follow (serve : ℕ → Option Cursor → Except Error (Page Row Cursor)) :
    ℕ → ℕ → Option Cursor → Option (List (List Row))
  | 0, _, _ => none
  | calls + 1, call, cursor =>
    match serve call cursor with
    | .error _ => none
    | .ok page =>
      match page.next with
      | none => some [page.items]
      | some next => (follow serve calls (call + 1) (some next)).map (page.items :: ·)

theorem walk_of_follow {calls call : ℕ} {cursor : Option Cursor} {pages : List (List Row)}
    (hfollow : follow serve calls call cursor = some pages) : Walk serve call cursor pages := by
  induction calls generalizing call cursor pages with
  | zero => cases hfollow
  | succ calls ih =>
      rw [follow] at hfollow
      split at hfollow
      · cases hfollow
      · rename_i page hpage
        split at hfollow
        · rename_i hnext
          rw [← Option.some.inj hfollow]
          exact Walk.last hpage hnext
        · rename_i next hnext
          obtain ⟨others, hothers, hsame⟩ := Option.map_eq_some_iff.mp hfollow
          rw [← hsame]
          exact Walk.more hpage hnext (ih hothers)

theorem returnsOnce_of_follow {calls : ℕ} {pages : List (List Row)}
    (hfollow : follow serve calls 0 none = some pages) (hpages : pages.flatten.Perm rows) :
    ReturnsOnce serve rows :=
  ⟨pages, walk_of_follow hfollow, hpages⟩

/-- A walk that ends without the rows never returns them. -/
theorem not_returnsOnce_of_follow {calls : ℕ} {pages : List (List Row)}
    (hfollow : follow serve calls 0 none = some pages) (hpages : ¬ pages.flatten.Perm rows) :
    ¬ ReturnsOnce serve rows := by
  rintro ⟨others, hwalk, hothers⟩
  rw [hwalk.unique (walk_of_follow hfollow)] at hothers
  exact hpages hothers

/-- Calls that show each row in another form. -/
def presented {Item : Type*} (present : Row → Item)
    (serve : ℕ → Option Cursor → Except Error (Page Row Cursor)) (call : ℕ)
    (cursor : Option Cursor) : Except Error (Page Item Cursor) :=
  (serve call cursor).map fun page => ⟨page.items.map present, page.next⟩

section Presented

variable {Item : Type*} {present : Row → Item} {call : ℕ} {cursor : Option Cursor}

theorem presented_ok {page : Page Row Cursor} (hpage : serve call cursor = .ok page) :
    presented present serve call cursor = .ok ⟨page.items.map present, page.next⟩ := by
  rw [presented, hpage]
  rfl

theorem exists_of_presented {shown : Page Item Cursor}
    (hshown : presented present serve call cursor = .ok shown) :
    ∃ page, serve call cursor = .ok page ∧ shown = ⟨page.items.map present, page.next⟩ := by
  rw [presented] at hshown
  cases hserve : serve call cursor with
  | error _ =>
      rw [hserve] at hshown
      cases hshown
  | ok page =>
      rw [hserve] at hshown
      exact ⟨page, rfl, (Except.ok.inj hshown).symm⟩

theorem walk_presented {pages : List (List Row)} (hwalk : Walk serve call cursor pages) :
    Walk (presented present serve) call cursor (pages.map (List.map present)) := by
  induction hwalk with
  | last hpage hnext => exact Walk.last (presented_ok hpage) hnext
  | more hpage hnext _ ih => exact Walk.more (presented_ok hpage) hnext ih

theorem exists_walk_of_presented {shown : List (List Item)}
    (hwalk : Walk (presented present serve) call cursor shown) :
    ∃ pages, Walk serve call cursor pages ∧ shown = pages.map (List.map present) := by
  induction hwalk with
  | last hshown hnext =>
      obtain ⟨page, hpage, rfl⟩ := exists_of_presented hshown
      exact ⟨_, Walk.last hpage hnext, rfl⟩
  | more hshown hnext _ ih =>
      obtain ⟨page, hpage, rfl⟩ := exists_of_presented hshown
      obtain ⟨pages, hwalk, rfl⟩ := ih
      exact ⟨_, Walk.more hpage hnext hwalk, rfl⟩

/-- Where the form tells the rows apart, they are returned once in it when they are at all. -/
theorem returnsOnce_presented_iff {known : List Row} (hdistinct : rows.Nodup) (hrows : rows ⊆ known)
    (hinjective : ∀ left ∈ known, ∀ right ∈ known, present left = present right → left = right)
    (hreturned : ∀ pages, Walk serve 0 none pages → ∀ row ∈ pages.flatten, row ∈ known) :
    ReturnsOnce (presented present serve) (rows.map present) ↔ ReturnsOnce serve rows := by
  constructor
  · rintro ⟨shown, hwalked, hshown⟩
    obtain ⟨pages, hwalk, rfl⟩ := exists_walk_of_presented hwalked
    refine ⟨pages, hwalk, ?_⟩
    rw [← List.map_flatten] at hshown
    have hmapped : (rows.map present).Nodup :=
      List.Nodup.map_on (fun left hleft right hright =>
        hinjective left (hrows hleft) right (hrows hright)) hdistinct
    have hflatten := (hshown.nodup_iff.mpr hmapped).of_map
    apply (List.perm_ext_iff_of_nodup hflatten hdistinct).mpr
    intro row
    constructor
    · intro hrow
      obtain ⟨other, hother, hsame⟩ :=
        List.mem_map.mp (hshown.mem_iff.mp (List.mem_map_of_mem hrow))
      rw [← hinjective other (hrows hother) row (hreturned pages hwalk row hrow) hsame]
      exact hother
    · intro hrow
      obtain ⟨other, hother, hsame⟩ :=
        List.mem_map.mp (hshown.mem_iff.mpr (List.mem_map_of_mem hrow))
      rw [← hinjective other (hreturned pages hwalk other hother) row (hrows hrow) hsame]
      exact hother
  · rintro ⟨pages, hwalk, hpages⟩
    refine ⟨_, walk_presented hwalk, ?_⟩
    rw [← List.map_flatten]
    exact hpages.map present

theorem eq_of_map_eq
    (hinjective : ∀ left ∈ rows, ∀ right ∈ rows, present left = present right → left = right)
    {first second : List Row} (hfirst : ∀ row ∈ first, row ∈ rows)
    (hsecond : ∀ row ∈ second, row ∈ rows) (hsame : first.map present = second.map present) :
    first = second := by
  induction first generalizing second with
  | nil => exact (List.map_eq_nil_iff.mp hsame.symm).symm
  | cons head others ih =>
      obtain ⟨other, rest, rfl, hhead, hrest⟩ := List.map_eq_cons_iff.mp hsame.symm
      obtain ⟨hheadMem, hothers⟩ := List.forall_mem_cons.mp hfirst
      obtain ⟨hotherMem, hrestMem⟩ := List.forall_mem_cons.mp hsecond
      rw [hinjective head hheadMem other hotherMem hhead.symm, ih hothers hrestMem hrest.symm]

theorem returnsInOrder_presented_iff
    (hinjective : ∀ left ∈ rows, ∀ right ∈ rows, present left = present right → left = right)
    (hreturned : ∀ pages, Walk serve 0 none pages → ∀ row ∈ pages.flatten, row ∈ rows) :
    ReturnsInOrder (presented present serve) (rows.map present) ↔ ReturnsInOrder serve rows := by
  constructor
  · rintro ⟨shown, hwalked, hshown⟩
    obtain ⟨pages, hwalk, rfl⟩ := exists_walk_of_presented hwalked
    rw [← List.map_flatten] at hshown
    exact ⟨pages, hwalk, eq_of_map_eq hinjective (hreturned pages hwalk) (fun _ => id) hshown⟩
  · rintro ⟨pages, hwalk, hpages⟩
    refine ⟨_, walk_presented hwalk, ?_⟩
    rw [← List.map_flatten, hpages]

end Presented

end Walks

/-! ## One row more than a page -/

/-- The page of rows of which one more than the page was asked for. -/
def cutPage (limit : ℕ) (encode : Row → Cursor) (found : List Row) : Page Row Cursor where
  items := if limit < found.length then found.take limit else found
  next := if limit < found.length then (found.take limit).getLast?.map encode else none

section Overfetch

variable {found : List Row} {limit : ℕ}

theorem lt_length_overfetch : limit < (found.take (limit + 1)).length ↔ limit < found.length := by
  rw [List.length_take]
  omega

theorem take_overfetch : (found.take (limit + 1)).take limit = found.take limit := by
  rw [List.take_take, min_eq_left (Nat.le_succ limit)]

theorem overfetch_of_le (hshort : ¬ limit < found.length) :
    found.take (limit + 1) = found.take limit := by
  rw [List.take_of_length_le (by omega), List.take_of_length_le (by omega)]

theorem cutPage_overfetch {encode : Row → Cursor} :
    cutPage limit encode (found.take (limit + 1)) =
      ⟨found.take limit,
        if limit < found.length then (found.take limit).getLast?.map encode else none⟩ := by
  simp only [cutPage, take_overfetch, lt_length_overfetch]
  by_cases hmore : limit < found.length
  · simp only [if_pos hmore]
  · simp only [if_neg hmore, overfetch_of_le hmore]

end Overfetch

/-! ## Listings -/

/-- A listing of rows that differ, and what is found of it for a cursor.  An eager listing
hands out a cursor with every page that has rows, and another one only when rows remain. -/
structure Listing (Row Cursor : Type*) where
  rows : List Row
  distinct : rows.Nodup
  limit : ℕ
  limit_pos : 0 < limit
  eager : Bool
  cursorOf : ℕ → Row → Cursor
  found : ℕ → Cursor → List Row
  found_sublist : ∀ call cursor, (found call cursor).Sublist rows

namespace Listing

variable (listing : Listing Row Cursor)

def foundAt (call : ℕ) : Option Cursor → List Row
  | none => listing.rows
  | some cursor => listing.found call cursor

/-- The first rows that are found, and the cursor of the last of them. -/
def page (call : ℕ) (cursor : Option Cursor) : Page Row Cursor where
  items := (listing.foundAt call cursor).take listing.limit
  next :=
    if listing.eager ∨ listing.limit < (listing.foundAt call cursor).length then
      ((listing.foundAt call cursor).take listing.limit).getLast?.map (listing.cursorOf call)
    else none

def serve (Error : Type*) (call : ℕ) (cursor : Option Cursor) : Except Error (Page Row Cursor) :=
  .ok (listing.page call cursor)

/-- A page that is cut after these rows hands out a cursor. -/
def Cuts (before rest : List Row) : Prop :=
  (listing.limit ∣ before.length + 1 ∧ rest ≠ []) ∨ (listing.eager ∧ rest = [])

/-- For the cursor of each cut, the rows that remain are found. -/
def Clean : Prop :=
  ∀ before last rest, listing.rows = before ++ last :: rest → listing.Cuts before rest →
    listing.found (before.length / listing.limit + 1)
      (listing.cursorOf (before.length / listing.limit) last) = rest

/-- A row that is found on the first page and for every cursor. -/
def Recurs (row : Row) : Prop :=
  ∀ call cursor, row ∈ listing.foundAt call cursor

/-- What is found for a cursor of found rows was found before, unless it goes back. -/
def Closed : Prop :=
  ∀ call later before last rest, listing.rows = before ++ last :: rest →
    ∀ next ∈ listing.found (call + 1) (listing.cursorOf call last), next ∈ rest →
      ¬ listing.Recurs next →
        (∀ row ∈ listing.found (later + 1) (listing.cursorOf later next), row ∈ rest) →
          ∀ row ∈ listing.found (later + 1) (listing.cursorOf later next),
            row ∈ listing.found (call + 1) (listing.cursorOf call last)

/-! ## Pages of what remains -/

section Pages

variable {listing : Listing Row Cursor} {call : ℕ} {cursor : Option Cursor}
variable {before rest : List Row}

theorem walk_nil (hfound : listing.foundAt call cursor = []) :
    Walk (listing.serve Error) call cursor [[]] := by
  have hitems : (listing.page call cursor).items = [] := by
    rw [page, hfound, List.take_nil]
  have hnext : (listing.page call cursor).next = none := by
    simp only [page, hfound, List.take_nil, List.getLast?_nil, Option.map_none, ite_self]
  rw [← hitems]
  exact Walk.last rfl hnext

/-- A page of rows that remain ends with one of them. -/
theorem exists_last (listing : Listing Row Cursor) {rest : List Row} (hrest : rest ≠ []) :
    ∃ init last, rest.take listing.limit = init ++ [last] ∧
    rest = init ++ last :: rest.drop listing.limit ∧
      init.length + 1 = min listing.limit rest.length := by
  rcases List.eq_nil_or_concat (rest.take listing.limit) with hnil | ⟨init, last, hconcat⟩
  · rcases List.take_eq_nil_iff.mp hnil with hzero | hempty
    · exact absurd hzero listing.limit_pos.ne'
    · exact absurd hempty hrest
  · rw [List.concat_eq_append] at hconcat
    have hsize := congrArg List.length hconcat
    rw [List.length_append, List.length_singleton, List.length_take] at hsize
    refine ⟨init, last, hconcat, ?_, hsize.symm⟩
    calc
      rest = rest.take listing.limit ++ rest.drop listing.limit :=
        (List.take_append_drop _ _).symm
      _ = init ++ last :: rest.drop listing.limit := by
        rw [hconcat, List.append_assoc]
        rfl

/-- The number of the page that ends after these rows. -/
theorem page_number {init : List Row} (hbefore : before.length = listing.limit * call)
    (hinit : init.length < listing.limit) : (before ++ init).length / listing.limit = call := by
  rw [List.length_append, hbefore, Nat.mul_add_div listing.limit_pos, Nat.div_eq_of_lt hinit,
    Nat.add_zero]

end Pages

/-! ## A clean listing is walked in order -/

section Clean

variable {listing : Listing Row Cursor}

theorem walk_of_clean (hclean : listing.Clean) (call : ℕ) (cursor : Option Cursor)
    (before rest : List Row) (hrows : listing.rows = before ++ rest)
    (hbefore : before.length = listing.limit * call)
    (hfound : listing.foundAt call cursor = rest) :
    ∃ pages, Walk (listing.serve Error) call cursor pages ∧ pages.flatten = rest := by
  induction hsize : rest.length using Nat.strong_induction_on
    generalizing call cursor before rest with
  | _ size ih =>
    by_cases hrest : rest = []
    · subst hrest
      exact ⟨[[]], walk_nil hfound, rfl⟩
    obtain ⟨init, last, htake, hsplit, hinit⟩ := exists_last listing hrest
    have hsmall : init.length < listing.limit := by omega
    have hnumber := page_number hbefore hsmall
    have hcut : listing.rows = (before ++ init) ++ last :: rest.drop listing.limit := by
      rw [List.append_assoc, ← hsplit, hrows]
    have hitems : (listing.page call cursor).items = init ++ [last] := by
      rw [page, hfound, htake]
    have hflatten : (listing.page call cursor).items ++ rest.drop listing.limit = rest := by
      rw [hitems, List.append_assoc]
      exact hsplit.symm
    by_cases hmore : listing.eager ∨ listing.limit < rest.length
    · have hnext : (listing.page call cursor).next = some (listing.cursorOf call last) := by
        simp only [page, hfound, htake, if_pos hmore, List.getLast?_concat, Option.map_some]
      have hcuts : listing.Cuts (before ++ init) (rest.drop listing.limit) := by
        by_cases hlonger : listing.limit < rest.length
        · apply Or.inl
          constructor
          · rw [List.length_append, hbefore, add_assoc, hinit, min_eq_left hlonger.le]
            exact Dvd.intro (call + 1) (by ring)
          · apply List.ne_nil_of_length_pos
            rw [List.length_drop]
            omega
        · exact .inr ⟨hmore.resolve_right hlonger, List.drop_eq_nil_of_le (by omega)⟩
      have hremain := hclean _ _ _ hcut hcuts
      rw [hnumber] at hremain
      by_cases hlonger : listing.limit < rest.length
      · obtain ⟨pages, hwalk, hpages⟩ := ih (rest.drop listing.limit).length
          (by rw [List.length_drop]; have := listing.limit_pos; omega) (call + 1)
          (some (listing.cursorOf call last)) (before ++ (init ++ [last]))
          (rest.drop listing.limit) (by rw [hcut]; simp)
          (by
            rw [List.length_append, List.length_append, List.length_singleton, hbefore, hinit,
              min_eq_left hlonger.le, Nat.mul_succ]) hremain rfl
        exact ⟨_, Walk.more rfl hnext hwalk, by rw [List.flatten_cons, hpages, hflatten]⟩
      · have hnil : rest.drop listing.limit = [] := List.drop_eq_nil_of_le (by omega)
        rw [hnil] at hremain
        refine ⟨_, Walk.more rfl hnext (walk_nil hremain), ?_⟩
        rw [← hflatten, hnil]
        simp
    · have hnext : (listing.page call cursor).next = none := by
        simp only [page, hfound, if_neg hmore]
      have hnil : rest.drop listing.limit = [] :=
        List.drop_eq_nil_of_le (not_lt.mp fun hlonger => hmore (.inr hlonger))
      refine ⟨_, Walk.last rfl hnext, ?_⟩
      rw [← hflatten, hnil]
      simp

theorem returnsInOrder_of_clean (hclean : listing.Clean) :
    ReturnsInOrder (listing.serve Error) listing.rows :=
  walk_of_clean hclean 0 none [] listing.rows rfl rfl rfl

end Clean

/-! ## A listing that is returned once is clean -/

section Converse

variable {listing : Listing Row Cursor} {call later : ℕ} {before rest : List Row} {last : Row}

/-- Rows that are found from one of the rows that remain on all remain. -/
theorem sublist_of_head (hrows : listing.rows = before ++ rest) {first : Row} {others : List Row}
    {cursor : Cursor} (hfound : listing.found call cursor = first :: others)
    (hfirst : first ∈ rest) : (listing.found call cursor).Sublist rest := by
  have hsublist := listing.found_sublist call cursor
  have hdistinct := listing.distinct
  rw [hrows] at hsublist hdistinct
  obtain ⟨left, right, hsame, hleft, hright⟩ := List.sublist_append_iff.mp hsublist
  cases left with
  | nil =>
      rw [hsame]
      exact hright
  | cons head tail =>
      rw [hfound, List.cons_append] at hsame
      have hbefore : first ∈ before := by
        rw [(List.cons.inj hsame).1]
        exact hleft.subset List.mem_cons_self
      exact absurd hfirst ((List.nodup_append.mp hdistinct).2.2 first hbefore first · rfl)

/-- A page that returns only rows that remain has found only such rows. -/
theorem found_sublist_of_page (hrows : listing.rows = before ++ rest) {cursor : Cursor}
    (hitems : ∀ row ∈ (listing.page call (some cursor)).items, row ∈ rest) :
    (listing.found call cursor).Sublist rest := by
  cases hfound : listing.found call cursor with
  | nil => exact List.nil_sublist rest
  | cons first others =>
      rw [← hfound]
      apply sublist_of_head hrows hfound
      apply hitems
      change first ∈ (listing.found call cursor).take listing.limit
      rw [hfound]
      obtain ⟨size, hsize⟩ := Nat.exists_eq_succ_of_ne_zero listing.limit_pos.ne'
      rw [hsize]
      exact List.mem_cons_self

/-- The cursor of a page belongs to one of its rows. -/
theorem exists_of_next {cursor : Option Cursor} {next : Cursor}
    (hnext : (listing.page call cursor).next = some next) :
    ∃ row ∈ (listing.page call cursor).items, listing.cursorOf call row = next := by
  rw [page] at hnext
  dsimp only at hnext
  split at hnext
  · obtain ⟨row, hrow, hsame⟩ := Option.map_eq_some_iff.mp hnext
    exact ⟨row, List.mem_of_getLast? hrow, hsame⟩
  · cases hnext

/-- A row that is always found is on the last page. -/
theorem mem_of_recurs {row : Row} (hrecurs : listing.Recurs row) {cursor : Option Cursor}
    {pages : List (List Row)} (hwalk : Walk (listing.serve Error) call cursor pages) :
    row ∈ pages.flatten := by
  induction hwalk with
  | @last number cursor _ hpage hend =>
      obtain rfl := Except.ok.inj hpage
      rw [List.flatten_singleton]
      have hfound := hrecurs number cursor
      by_cases hmore : listing.eager ∨ listing.limit < (listing.foundAt number cursor).length
      · simp only [page, if_pos hmore, Option.map_eq_none_iff, List.getLast?_eq_none_iff,
          List.take_eq_nil_iff] at hend
        rcases hend with hzero | hempty
        · exact absurd hzero listing.limit_pos.ne'
        · rw [hempty] at hfound
          cases hfound
      · rw [page, List.take_of_length_le (not_lt.mp fun hlonger => hmore (.inr hlonger))]
        exact hfound
  | more _ _ _ ih =>
      rw [List.flatten_cons]
      exact List.mem_append_right _ ih

/-- What a walk returns from a cursor on was found for that cursor. -/
theorem returned_found (hclosed : listing.Closed)
    (hrows : listing.rows = before ++ last :: rest) {next : Row} {pages : List (List Row)}
    (hwalk : Walk (listing.serve Error) (later + 1) (some (listing.cursorOf later next)) pages)
    (hnext : next ∈ listing.found (call + 1) (listing.cursorOf call last)) (hrest : next ∈ rest)
    (hrecurs : ¬ listing.Recurs next) (hdistinct : pages.flatten.Nodup)
    (hreturned : ∀ row ∈ pages.flatten, row ∈ rest) :
    ∀ row ∈ pages.flatten, row ∈ listing.found (call + 1) (listing.cursorOf call last) := by
  have hsplit : listing.rows = (before ++ [last]) ++ rest := by rw [hrows, List.append_cons]
  generalize hstart : later + 1 = start at hwalk
  generalize hcursor : some (listing.cursorOf later next) = cursor at hwalk
  induction hwalk generalizing later next with
  | last hpage hend =>
      obtain rfl := Except.ok.inj hpage
      subst hstart hcursor
      rw [List.flatten_singleton] at hreturned ⊢
      have hfound := found_sublist_of_page hsplit hreturned
      intro row hrow
      apply hclosed call later before last rest hrows next hnext hrest hrecurs hfound.subset
      exact List.mem_of_mem_take hrow
  | more hpage hmore hwalk ih =>
      obtain rfl := Except.ok.inj hpage
      subst hstart hcursor
      rw [List.flatten_cons] at hreturned hdistinct ⊢
      have hfound := found_sublist_of_page hsplit fun row hrow =>
        hreturned row (List.mem_append_left _ hrow)
      have hkept :=
        hclosed call later before last rest hrows next hnext hrest hrecurs hfound.subset
      obtain ⟨following, hfollowing, hcursor⟩ := exists_of_next hmore
      have hmem := List.mem_of_mem_take hfollowing
      obtain ⟨-, hlater, hapart⟩ := List.nodup_append.mp hdistinct
      subst hcursor
      intro row hrow
      rcases List.mem_append.mp hrow with hitem | hafter
      · exact hkept row (List.mem_of_mem_take hitem)
      · apply ih (hkept following hmem) (hfound.subset hmem) _ hlater _ rfl rfl row hafter
        · exact fun hagain => hapart following hfollowing following (mem_of_recurs hagain hwalk) rfl
        · exact fun row hrow => hreturned row (List.mem_append_right _ hrow)

/-- A walk that returns what remains has found what remains. -/
theorem found_of_walk (hclosed : listing.Closed)
    (hrows : listing.rows = before ++ last :: rest) {pages : List (List Row)}
    (hwalk : Walk (listing.serve Error) (call + 1) (some (listing.cursorOf call last)) pages)
    (hpages : pages.flatten.Perm rest) :
    listing.found (call + 1) (listing.cursorOf call last) = rest := by
  have hsplit : listing.rows = (before ++ [last]) ++ rest := by rw [hrows, List.append_cons]
  have hdistinct : rest.Nodup :=
    listing.distinct.sublist (hsplit ▸ List.sublist_append_right _ _)
  have hmem : ∀ row ∈ pages.flatten, row ∈ rest := fun row => hpages.mem_iff.mp
  have hsublist : (listing.found (call + 1) (listing.cursorOf call last)).Sublist rest := by
    apply found_sublist_of_page hsplit
    intro row hrow
    apply hmem
    cases hwalk with
    | last hpage _ =>
        obtain rfl := Except.ok.inj hpage
        rwa [List.flatten_singleton]
    | more hpage _ _ =>
        obtain rfl := Except.ok.inj hpage
        exact List.mem_append_left _ hrow
  apply hsublist.eq_of_length_le
  apply List.Subperm.length_le
  apply List.subperm_of_subset hdistinct
  intro row hrow
  have hreturned := hpages.mem_iff.mpr hrow
  cases hwalk with
  | last hpage _ =>
      obtain rfl := Except.ok.inj hpage
      rw [List.flatten_singleton] at hreturned
      exact List.mem_of_mem_take hreturned
  | more hpage hnext hwalk =>
      obtain rfl := Except.ok.inj hpage
      rcases List.mem_append.mp (List.flatten_cons ▸ hreturned) with hitem | hlater
      · exact List.mem_of_mem_take hitem
      · obtain ⟨following, hfollowing, hcursor⟩ := exists_of_next hnext
        have hfound := List.mem_of_mem_take hfollowing
        obtain ⟨-, hapart, hnever⟩ :=
          List.nodup_append.mp (List.flatten_cons ▸ hpages.nodup_iff.mpr hdistinct)
        subst hcursor
        apply returned_found hclosed hrows hwalk hfound (hsublist.subset hfound) _ hapart _ row
          hlater
        · exact fun hagain => hnever following hfollowing following (mem_of_recurs hagain hwalk) rfl
        · exact fun row hrow => hmem row (List.flatten_cons ▸ List.mem_append_right _ hrow)

/-- Rows that remain in front of a cut are as many as the pages say. -/
theorem page_le_of_cuts {init after : List Row} (hbefore : before.length = listing.limit * call)
    (hcuts : listing.Cuts (before ++ init) after) :
    listing.limit ≤ init.length + 1 ∨ (listing.eager ∧ after = []) := by
  rcases hcuts with ⟨hdivides, -⟩ | heager
  · apply Or.inl
    rw [List.length_append, hbefore, add_assoc, Nat.dvd_add_right (Dvd.intro call rfl)] at hdivides
    exact Nat.le_of_dvd (Nat.succ_pos _) hdivides
  · exact .inr heager

/-- A last page is not cut. -/
theorem not_cuts_of_last {cursor : Option Cursor} {init after : List Row}
    (hbefore : before.length = listing.limit * call)
    (hfound : listing.foundAt call cursor = init ++ last :: after)
    (hend : (listing.page call cursor).next = none) : ¬ listing.Cuts (before ++ init) after := by
  intro hcuts
  obtain ⟨first, final, htake, -, -⟩ := exists_last listing
    (List.append_ne_nil_of_right_ne_nil init (List.cons_ne_nil last after))
  simp only [page, hfound, htake, List.getLast?_concat, Option.map_some] at hend
  split at hend
  · cases hend
  · rename_i hmore
    obtain ⟨hlazy, hshort⟩ := not_or.mp hmore
    rw [List.length_append, List.length_cons] at hshort
    rcases hcuts with ⟨hdivides, hafter⟩ | ⟨heager, -⟩
    · rw [List.length_append, hbefore, add_assoc, Nat.dvd_add_right (Dvd.intro call rfl)]
        at hdivides
      have hle := Nat.le_of_dvd (Nat.succ_pos _) hdivides
      have hpos := List.length_pos_iff.mpr hafter
      omega
    · exact hlazy heager

/-- The page of what remains ends with a row, its cursor is handed out, and the pages after it
return what remains after that row. -/
theorem exists_cut_of_more {cursor : Option Cursor} {next : Cursor} {pages : List (List Row)}
    (hrest : rest ≠ []) (hfound : listing.foundAt call cursor = rest)
    (hnext : (listing.page call cursor).next = some next)
    (hpages : ((listing.page call cursor).items :: pages).flatten.Perm rest) :
    ∃ first final, rest = first ++ final :: rest.drop listing.limit ∧
      first.length + 1 = min listing.limit rest.length ∧
        next = listing.cursorOf call final ∧ pages.flatten.Perm (rest.drop listing.limit) := by
  obtain ⟨first, final, htake, hsplit, hsize⟩ := exists_last listing hrest
  refine ⟨first, final, hsplit, hsize, ?_, ?_⟩
  · simp only [page, hfound, htake, List.getLast?_concat, Option.map_some] at hnext
    split at hnext
    · exact (Option.some.inj hnext).symm
    · cases hnext
  · apply (List.perm_append_left_iff (rest.take listing.limit)).mp
    rw [List.take_append_drop, ← hfound]
    rw [List.flatten_cons, ← hfound] at hpages
    exact hpages

/-- Each cut of a walk that returns what remains is followed by what remains. -/
theorem clean_of_walk (hclosed : listing.Closed) {cursor : Option Cursor}
    {pages : List (List Row)} (hwalk : Walk (listing.serve Error) call cursor pages)
    (hrows : listing.rows = before ++ rest) (hbefore : before.length = listing.limit * call)
    (hfound : listing.foundAt call cursor = rest) (hpages : pages.flatten.Perm rest)
    {init after : List Row} (hrest : rest = init ++ last :: after)
    (hcuts : listing.Cuts (before ++ init) after) :
    listing.found ((before ++ init).length / listing.limit + 1)
      (listing.cursorOf ((before ++ init).length / listing.limit) last) = after := by
  induction hwalk generalizing before rest init with
  | last hpage hend =>
      obtain rfl := Except.ok.inj hpage
      exact absurd hcuts (not_cuts_of_last hbefore (hfound.trans hrest) hend)
  | @more number cursor page next pages hpage hnext hwalk ih =>
      obtain rfl := Except.ok.inj hpage
      have hlength : rest.length = init.length + after.length + 1 := by
        rw [hrest, List.length_append, List.length_cons, add_assoc]
      obtain ⟨first, final, hsplit, hsize, hcursor, hremain⟩ := exists_cut_of_more
        (List.ne_nil_of_length_pos (by omega : 0 < rest.length)) hfound hnext hpages
      subst hcursor
      have hcut : listing.rows = (before ++ first) ++ final :: rest.drop listing.limit := by
        rw [List.append_assoc, ← hsplit, hrows]
      have hclean := found_of_walk hclosed hcut hwalk hremain
      have hprefix : first ++ final :: rest.drop listing.limit = init ++ last :: after :=
        hsplit.symm.trans hrest
      have hle := page_le_of_cuts hbefore hcuts
      rcases lt_trichotomy init.length first.length with hlt | heq | hgt
      · -- The cut would fall inside the page.
        rcases hle with hfull | ⟨-, hafter⟩
        · omega
        · rw [hafter, List.length_nil] at hlength
          omega
      · obtain ⟨hinit, htail⟩ := List.append_inj hprefix heq.symm
        obtain ⟨hlast, hafter⟩ := List.cons.inj htail
        subst hinit
        rw [page_number hbefore (by omega), ← hlast, hclean, hafter]
      · -- The cut falls after the page, so the page is a full one.
        have hfull : first.length + 1 = listing.limit := by omega
        obtain ⟨later, hlater⟩ : first ++ [final] <+: init := by
          apply List.prefix_of_prefix_length_le _ (List.prefix_append init (last :: after))
          · rw [List.length_append, List.length_singleton]
            omega
          · refine ⟨rest.drop listing.limit, ?_⟩
            rw [List.append_assoc]
            exact hprefix
        have hdrop : rest.drop listing.limit = later ++ last :: after := by
          rw [← hlater, List.append_assoc, List.append_assoc, List.append_cancel_left_eq] at hprefix
          exact (List.cons.inj hprefix).2
        rw [← hlater, ← List.append_assoc] at hcuts ⊢
        apply ih _ _ hclean hremain hdrop hcuts
        · rw [hcut]
          simp only [List.append_assoc, List.singleton_append]
        · rw [List.length_append, List.length_append, List.length_singleton, hbefore, hfull,
            Nat.mul_succ]

theorem clean_of_returnsOnce (hclosed : listing.Closed)
    (honce : ReturnsOnce (listing.serve Error) listing.rows) : listing.Clean := by
  obtain ⟨pages, hwalk, hpages⟩ := honce
  intro before last rest hrows hcuts
  exact clean_of_walk hclosed hwalk (List.nil_append _).symm rfl rfl hpages hrows hcuts

/-- The rows are returned once exactly when each cut finds what remains. -/
theorem returnsOnce_iff (hclosed : listing.Closed) :
    ReturnsOnce (listing.serve Error) listing.rows ↔ listing.Clean := by
  constructor
  · exact clean_of_returnsOnce hclosed
  · exact fun hclean => (returnsInOrder_of_clean hclean).once

theorem returnsInOrder_iff (hclosed : listing.Closed) :
    ReturnsInOrder (listing.serve Error) listing.rows ↔ listing.Clean := by
  constructor
  · exact fun horder => clean_of_returnsOnce hclosed horder.once
  · exact returnsInOrder_of_clean

end Converse

/-! ## Cursor texts -/

section Texts

variable {listing : Listing Row Cursor} {Text : Type*} {encode : Cursor → Text}
variable {serve : ℕ → Option Text → Except Error (Page Row Text)}

/-- A cursor that a page of the listing may hand out. -/
def HandsOut (listing : Listing Row Cursor) (cursor : Cursor) : Prop :=
  ∃ call, ∃ row ∈ listing.rows, listing.cursorOf call row = cursor

/-- The calls serve the listing, with each of its cursors written as a text. -/
def ServedBy (listing : Listing Row Cursor) (encode : Cursor → Text)
    (serve : ℕ → Option Text → Except Error (Page Row Text)) : Prop :=
  ∀ call cursor, (∀ place ∈ cursor, listing.HandsOut place) →
    serve call (cursor.map encode) = .ok
      ⟨(listing.page call cursor).items, (listing.page call cursor).next.map encode⟩

theorem encode_page {call : ℕ} {cursor : Option Cursor} (hlazy : listing.eager = false) :
    (⟨(listing.page call cursor).items, (listing.page call cursor).next.map encode⟩ :
        Page Row Text) =
      cutPage listing.limit (encode ∘ listing.cursorOf call)
        ((listing.foundAt call cursor).take (listing.limit + 1)) := by
  rw [cutPage_overfetch]
  simp only [page, hlazy, Bool.false_eq_true, false_or]
  split
  · rw [Option.map_map]
  · rfl

theorem encode_eager_page {call : ℕ} {cursor : Option Cursor} (heager : listing.eager = true) :
    (⟨(listing.page call cursor).items, (listing.page call cursor).next.map encode⟩ :
        Page Row Text) =
      ⟨(listing.foundAt call cursor).take listing.limit,
        ((listing.foundAt call cursor).take listing.limit).getLast?.map
          (encode ∘ listing.cursorOf call)⟩ := by
  simp only [page, heager, true_or, if_true, Option.map_map]

theorem handsOut_of_next {call : ℕ} {cursor : Option Cursor} {next : Cursor}
    (hnext : (listing.page call cursor).next = some next) : listing.HandsOut next := by
  obtain ⟨row, hrow, hsame⟩ := exists_of_next hnext
  refine ⟨call, row, ?_, hsame⟩
  have hfound := List.mem_of_mem_take hrow
  cases cursor with
  | none => exact hfound
  | some place => exact (listing.found_sublist call place).subset hfound

theorem walk_of_servedBy (hserved : listing.ServedBy encode serve) {call : ℕ}
    {cursor : Option Cursor} {pages : List (List Row)}
    (hcursor : ∀ place ∈ cursor, listing.HandsOut place)
    (hwalk : Walk (listing.serve Error) call cursor pages) :
    Walk serve call (cursor.map encode) pages := by
  induction hwalk with
  | last hpage hnext =>
      obtain rfl := Except.ok.inj hpage
      apply Walk.last (hserved _ _ hcursor)
      rw [hnext, Option.map_none]
  | more hpage hnext _ ih =>
      obtain rfl := Except.ok.inj hpage
      apply Walk.more (hserved _ _ hcursor)
      · rw [hnext, Option.map_some]
      · apply ih
        rintro place ⟨⟩
        exact handsOut_of_next hnext

theorem walk_listing_of_servedBy (hserved : listing.ServedBy encode serve) {call : ℕ}
    {cursor : Option Cursor} {pages : List (List Row)}
    (hcursor : ∀ place ∈ cursor, listing.HandsOut place)
    (hwalk : Walk serve call (cursor.map encode) pages) :
    Walk (listing.serve Error) call cursor pages := by
  generalize htext : cursor.map encode = text at hwalk
  induction hwalk generalizing cursor with
  | last hpage hnext =>
      rw [← htext, hserved _ _ hcursor] at hpage
      obtain rfl := Except.ok.inj hpage
      exact Walk.last rfl (Option.map_eq_none_iff.mp hnext)
  | more hpage hnext _ ih =>
      rw [← htext, hserved _ _ hcursor] at hpage
      obtain rfl := Except.ok.inj hpage
      obtain ⟨place, hplace, hsame⟩ := Option.map_eq_some_iff.mp hnext
      apply Walk.more rfl hplace
      apply ih
      · rintro _ ⟨⟩
        exact handsOut_of_next hplace
      · rw [Option.map_some, hsame]

theorem walk_iff_of_servedBy (hserved : listing.ServedBy encode serve)
    {pages : List (List Row)} :
    Walk serve 0 none pages ↔ Walk (listing.serve Error) 0 none pages := by
  have hcursor : ∀ place ∈ (none : Option Cursor), listing.HandsOut place := nofun
  exact ⟨walk_listing_of_servedBy hserved hcursor, walk_of_servedBy hserved hcursor⟩

theorem mem_rows_of_walk {call : ℕ} {cursor : Option Cursor} {pages : List (List Row)}
    (hwalk : Walk (listing.serve Error) call cursor pages) :
    ∀ row ∈ pages.flatten, row ∈ listing.rows := by
  have hitems (number : ℕ) (place : Option Cursor) :
      ∀ row ∈ (listing.page number place).items, row ∈ listing.rows := by
    intro row hrow
    have hfound := List.mem_of_mem_take hrow
    cases place with
    | none => exact hfound
    | some place => exact (listing.found_sublist number place).subset hfound
  induction hwalk with
  | last hpage _ =>
      obtain rfl := Except.ok.inj hpage
      rw [List.flatten_singleton]
      exact hitems _ _
  | more hpage _ _ ih =>
      obtain rfl := Except.ok.inj hpage
      intro row hrow
      rcases List.mem_append.mp (List.flatten_cons ▸ hrow) with hitem | hlater
      · exact hitems _ _ row hitem
      · exact ih row hlater

theorem mem_rows_of_servedBy (hserved : listing.ServedBy encode serve)
    {pages : List (List Row)} (hwalk : Walk serve 0 none pages) :
    ∀ row ∈ pages.flatten, row ∈ listing.rows :=
  mem_rows_of_walk ((walk_iff_of_servedBy hserved).mp hwalk)

theorem returnsOnce_iff_of_servedBy (hserved : listing.ServedBy encode serve)
    (hclosed : listing.Closed) : ReturnsOnce serve listing.rows ↔ listing.Clean := by
  simp only [ReturnsOnce, walk_iff_of_servedBy hserved]
  exact returnsOnce_iff hclosed

theorem returnsInOrder_iff_of_servedBy (hserved : listing.ServedBy encode serve)
    (hclosed : listing.Closed) : ReturnsInOrder serve listing.rows ↔ listing.Clean := by
  simp only [ReturnsInOrder, walk_iff_of_servedBy hserved]
  exact returnsInOrder_iff hclosed

theorem returnsInOrder_of_servedBy (hserved : listing.ServedBy encode serve)
    (hclean : listing.Clean) : ReturnsInOrder serve listing.rows := by
  simp only [ReturnsInOrder, walk_iff_of_servedBy hserved]
  exact returnsInOrder_of_clean hclean

end Texts

/-! ## Filtered listings -/

section Filtered

/-- The rows that pass a cursor, in the order of the listing. -/
def ofFilter (rows : List Row) (distinct : rows.Nodup) (limit : ℕ) (limit_pos : 0 < limit)
    (eager : Bool) (cursorOf : Row → Cursor) (passes : Cursor → Row → Bool) :
    Listing Row Cursor where
  rows := rows
  distinct := distinct
  limit := limit
  limit_pos := limit_pos
  eager := eager
  cursorOf _ := cursorOf
  found _ cursor := rows.filter (passes cursor)
  found_sublist _ _ := List.filter_sublist

variable {rows : List Row} {distinct : rows.Nodup} {limit : ℕ} {limit_pos : 0 < limit}
variable {eager : Bool} {cursorOf : Row → Cursor} {passes : Cursor → Row → Bool}

/-- The rows that pass are the later ones exactly when they and no others do. -/
theorem filter_eq_rest_iff {before rest : List Row} {last : Row} {accepts : Row → Bool}
    (hdistinct : (before ++ last :: rest).Nodup) :
    (before ++ last :: rest).filter accepts = rest ↔
      (∀ row ∈ rest, accepts row) ∧ (∀ row ∈ before, ¬ accepts row) ∧ ¬ accepts last := by
  constructor
  · intro hfilter
    have hmem (row : Row) (hrow : row ∈ before ++ last :: rest) : accepts row → row ∈ rest := by
      intro haccepts
      rw [← hfilter]
      exact List.mem_filter.mpr ⟨hrow, haccepts⟩
    obtain ⟨-, hrest, hapart⟩ := List.nodup_append.mp hdistinct
    refine ⟨?_, ?_, ?_⟩
    · intro row hrow
      rw [← hfilter] at hrow
      exact (List.mem_filter.mp hrow).2
    · intro row hrow haccepts
      have hlater := hmem row (List.mem_append_left _ hrow) haccepts
      exact hapart row hrow row (List.mem_cons_of_mem _ hlater) rfl
    · intro haccepts
      have hlater := hmem last (List.mem_append_right _ List.mem_cons_self) haccepts
      exact (List.nodup_cons.mp hrest).1 hlater
  · rintro ⟨hrest, hbefore, hlast⟩
    rw [List.filter_append, List.filter_cons, List.filter_eq_nil_iff.mpr hbefore,
      List.filter_eq_self.mpr hrest, if_neg hlast, List.nil_append]

theorem cuts_ofFilter_iff {before rest : List Row} :
    (ofFilter rows distinct limit limit_pos eager cursorOf passes).Cuts before rest ↔
      (limit ∣ before.length + 1 ∧ rest ≠ []) ∨ (eager ∧ rest = []) :=
  Iff.rfl

theorem clean_ofFilter_iff :
    (ofFilter rows distinct limit limit_pos eager cursorOf passes).Clean ↔
      ∀ before last rest, rows = before ++ last :: rest →
        (ofFilter rows distinct limit limit_pos eager cursorOf passes).Cuts before rest →
          (∀ row ∈ rest, passes (cursorOf last) row) ∧
            (∀ row ∈ before, ¬ passes (cursorOf last) row) ∧ ¬ passes (cursorOf last) last := by
  apply forall₄_congr
  intro before last rest hrows
  apply imp_congr_right
  intro _
  change rows = before ++ last :: rest at hrows
  subst hrows
  exact filter_eq_rest_iff distinct

/-- Where no cursor goes back, a listing that hands none out with its last page is clean exactly
when the later rows pass the cursor of each cut. -/
theorem clean_lazy_ofFilter_iff
    (hforward : ∀ before last rest, rows = before ++ last :: rest →
      (∀ row ∈ before, ¬ passes (cursorOf last) row) ∧ ¬ passes (cursorOf last) last) :
    (ofFilter rows distinct limit limit_pos false cursorOf passes).Clean ↔
      ∀ before last rest, rows = before ++ last :: rest → limit ∣ before.length + 1 →
        ∀ later ∈ rest, passes (cursorOf last) later := by
  apply clean_ofFilter_iff.trans
  apply forall₄_congr
  intro before last rest hrows
  rw [cuts_ofFilter_iff]
  constructor
  · intro hclean hcut later hlater
    exact (hclean (.inl ⟨hcut, List.ne_nil_of_mem hlater⟩)).1 later hlater
  · intro hcuts hcut
    obtain ⟨hcut, -⟩ := hcut.resolve_right fun hlazy => Bool.false_ne_true hlazy.1
    exact ⟨hcuts hcut, hforward before last rest hrows⟩

/-- A filter by an order of the cursors is closed. -/
theorem closed_ofFilter (htrans : ∀ last next row, passes (cursorOf last) next →
    passes (cursorOf next) row → passes (cursorOf last) row) :
    (ofFilter rows distinct limit limit_pos eager cursorOf passes).Closed := by
  intro call later before last rest _ next hnext _ _ _ row hrow
  obtain ⟨-, hpasses⟩ := List.mem_filter.mp hnext
  obtain ⟨hmem, hlater⟩ := List.mem_filter.mp hrow
  exact List.mem_filter.mpr ⟨hmem, htrans last next row hpasses hlater⟩

end Filtered

end Listing

end StellarSettle.PageWalk
