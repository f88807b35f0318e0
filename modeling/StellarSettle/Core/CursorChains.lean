import Mathlib.Data.Finset.Card
import Mathlib.Data.List.Nodup

/-!
# Chains of cursors

A loop asks a server for page after page and follows the cursor that each page hands out, until
a page hands out none or its own.  It gives up when a cursor comes up again, but does not count
the one that it started with.  A server may answer by what it was asked before.
-/

namespace StellarSettle.CursorChains

variable {Cursor Page Error : Type*}

abbrev Server (Cursor Page Error : Type*) := List (Cursor × Page) → Cursor → Except Error Page

/-! ## The loop -/

structure Walk (Cursor Page : Type*) where
  cursor : Cursor
  seen : List Cursor := []
  pages : List (Cursor × Page) := []

inductive Ending (Error : Type*) where
  | returned
  | repeated
  | failed (error : Error)

/-- The page is the answer to the cursor. -/
def Walk.read (walk : Walk Cursor Page) (page : Page) : Walk Cursor Page :=
  { walk with pages := walk.pages ++ [(walk.cursor, page)] }

def Walk.follow (walk : Walk Cursor Page) (page : Page) (following : Cursor) :
    Walk Cursor Page :=
  { walk.read page with cursor := following, seen := following :: walk.seen }

section Loop

variable [DecidableEq Cursor] (next : Page → Option Cursor) (server : Server Cursor Page Error)

/-- One request; the loop goes on where there is no ending. -/
def turn (walk : Walk Cursor Page) : Walk Cursor Page × Option (Ending Error) :=
  match server walk.pages walk.cursor with
  | .error error => (walk, some (.failed error))
  | .ok page =>
      match next page with
      | none => (walk.read page, some .returned)
      | some following =>
          if following = walk.cursor then (walk.read page, some .returned)
          else if following ∈ walk.seen then (walk.read page, some .repeated)
          else (walk.follow page following, none)

def loop : (fuel : ℕ) → Walk Cursor Page → Option (Walk Cursor Page × Ending Error)
  | 0, _ => none
  | fuel + 1, walk =>
      match turn next server walk with
      | (after, some ending) => some (after, ending)
      | (after, none) => loop fuel after

variable {next server} {walk : Walk Cursor Page} {page : Page} {following : Cursor} {error : Error}

theorem turn_failed (hserver : server walk.pages walk.cursor = .error error) :
    turn next server walk = (walk, some (.failed error)) := by
  rw [turn, hserver]

theorem turn_returned (hserver : server walk.pages walk.cursor = .ok page)
    (hends : ∀ following ∈ next page, following = walk.cursor) :
    turn next server walk = (walk.read page, some .returned) := by
  rw [turn, hserver]
  cases hnext : next page with
  | none => simp only [hnext]
  | some following => simp only [hnext, hends following hnext, if_true]

theorem turn_repeated (hserver : server walk.pages walk.cursor = .ok page)
    (hnext : next page = some following) (hmoves : following ≠ walk.cursor)
    (hseen : following ∈ walk.seen) :
    turn next server walk = (walk.read page, some .repeated) := by
  rw [turn, hserver]
  simp only [hnext, if_neg hmoves, if_pos hseen]

theorem turn_follows (hserver : server walk.pages walk.cursor = .ok page)
    (hnext : next page = some following) (hmoves : following ≠ walk.cursor)
    (hunseen : following ∉ walk.seen) :
    turn next server walk = (walk.follow page following, none) := by
  rw [turn, hserver]
  simp only [hnext, if_neg hmoves, if_neg hunseen]

theorem loop_ended {after : Walk Cursor Page} {ending : Ending Error}
    (hturn : turn next server walk = (after, some ending)) (fuel : ℕ) :
    loop next server (fuel + 1) walk = some (after, ending) := by
  rw [loop, hturn]

theorem loop_goesOn {after : Walk Cursor Page} (hturn : turn next server walk = (after, none))
    (fuel : ℕ) : loop next server (fuel + 1) walk = loop next server fuel after := by
  rw [loop, hturn]

/-- A request fails, finds the last page, or finds a cursor to follow. -/
theorem request_cases (next : Page → Option Cursor) (server : Server Cursor Page Error)
    (walk : Walk Cursor Page) :
    (∃ error, server walk.pages walk.cursor = .error error) ∨
      ∃ page, server walk.pages walk.cursor = .ok page ∧
        ((∀ following ∈ next page, following = walk.cursor) ∨
          ∃ following, next page = some following ∧ following ≠ walk.cursor) := by
  cases hserver : server walk.pages walk.cursor with
  | error error => exact .inl ⟨error, rfl⟩
  | ok page =>
      refine .inr ⟨page, rfl, ?_⟩
      by_cases hends : ∀ following ∈ next page, following = walk.cursor
      · exact .inl hends
      · push Not at hends
        exact .inr hends

/-- A server with finitely many cursors stops the loop: each request but the last finds a new
one. -/
theorem exists_ending {cursors : Finset Cursor}
    (hcursors : ∀ history cursor page, server history cursor = .ok page →
      ∀ following ∈ next page, following ∈ cursors)
    (hnodup : walk.seen.Nodup) (hseen : ∀ cursor ∈ walk.seen, cursor ∈ cursors) {fuel : ℕ}
    (hfuel : cursors.card < fuel + walk.seen.length) :
    ∃ after ending, loop next server fuel walk = some (after, ending) := by
  induction fuel generalizing walk with
  | zero =>
      have hcard : walk.seen.length ≤ cursors.card := by
        rw [← List.toFinset_card_of_nodup hnodup]
        exact Finset.card_le_card fun cursor hmem => hseen cursor (List.mem_toFinset.mp hmem)
      omega
  | succ fuel ih =>
      rcases request_cases next server walk with
        ⟨error, hserver⟩ | ⟨page, hserver, hends | ⟨following, hnext, hmoves⟩⟩
      · exact ⟨_, _, loop_ended (turn_failed hserver) fuel⟩
      · exact ⟨_, _, loop_ended (turn_returned hserver hends) fuel⟩
      by_cases hrepeated : following ∈ walk.seen
      · exact ⟨_, _, loop_ended (turn_repeated hserver hnext hmoves hrepeated) fuel⟩
      rw [loop_goesOn (turn_follows hserver hnext hmoves hrepeated)]
      apply ih
      · exact List.nodup_cons.mpr ⟨hrepeated, hnodup⟩
      · exact List.forall_mem_cons.mpr ⟨hcursors _ _ _ hserver _ hnext, hseen⟩
      · simp only [Walk.follow, List.length_cons]
        omega

end Loop

/-! ## The chain that a server offers -/

/-- The pages from a cursor on, each found by the cursor of the page before it, up to one that
hands out no other cursor. -/
inductive Follows (next : Page → Option Cursor) (server : Server Cursor Page Error) :
    List (Cursor × Page) → Cursor → List (Cursor × Page) → Prop
  | last {history cursor page} (hpage : server history cursor = .ok page)
      (hends : ∀ following ∈ next page, following = cursor) :
      Follows next server history cursor [(cursor, page)]
  | more {history cursor page following rest} (hpage : server history cursor = .ok page)
      (hnext : next page = some following) (hmoves : following ≠ cursor)
      (hrest : Follows next server (history ++ [(cursor, page)]) following rest) :
      Follows next server history cursor ((cursor, page) :: rest)

/-- The cursors that the pages handed out and the loop followed. -/
def laterCursors (pages : List (Cursor × Page)) : List Cursor := (pages.map Prod.fst).tail

section Chains

variable {next : Page → Option Cursor} {server : Server Cursor Page Error}
  {history pages : List (Cursor × Page)} {cursor : Cursor}

theorem Follows.map_fst (hfollows : Follows next server history cursor pages) :
    pages.map Prod.fst = cursor :: laterCursors pages := by
  cases hfollows <;> rfl

variable [DecidableEq Cursor] {walk after : Walk Cursor Page}

/-- What the loop returns is the chain, and no later cursor came up twice. -/
theorem follows_of_loop {fuel : ℕ} (hloop : loop next server fuel walk = some (after, .returned)) :
    ∃ rest, Follows next server walk.pages walk.cursor rest ∧ after.pages = walk.pages ++ rest ∧
      (laterCursors rest).Nodup ∧ ∀ later ∈ laterCursors rest, later ∉ walk.seen := by
  induction fuel generalizing walk with
  | zero => cases hloop
  | succ fuel ih =>
      rcases request_cases next server walk with
        ⟨error, hserver⟩ | ⟨page, hserver, hends | ⟨following, hnext, hmoves⟩⟩
      · rw [loop_ended (turn_failed hserver)] at hloop
        cases hloop
      · rw [loop_ended (turn_returned hserver hends)] at hloop
        cases hloop
        exact ⟨_, .last hserver hends, rfl, List.nodup_nil, by simp [laterCursors]⟩
      by_cases hrepeated : following ∈ walk.seen
      · rw [loop_ended (turn_repeated hserver hnext hmoves hrepeated)] at hloop
        cases hloop
      rw [loop_goesOn (turn_follows hserver hnext hmoves hrepeated)] at hloop
      obtain ⟨rest, hrest, hafter, hnodup, hunseen⟩ := ih hloop
      have hfresh : following ∉ laterCursors rest := fun hmem =>
        hunseen following hmem (List.mem_cons_self ..)
      refine ⟨_, .more hserver hnext hmoves hrest, by simp [hafter, Walk.follow, Walk.read], ?_, ?_⟩
      · rw [laterCursors, List.map_cons, List.tail_cons, hrest.map_fst]
        exact List.nodup_cons.mpr ⟨hfresh, hnodup⟩
      · rw [laterCursors, List.map_cons, List.tail_cons, hrest.map_fst, List.forall_mem_cons]
        exact ⟨hrepeated, fun later hmem hseen =>
          hunseen later hmem (List.mem_cons_of_mem _ hseen)⟩

/-- A chain without a cursor that comes up twice is what the loop returns. -/
theorem loop_of_follows {rest : List (Cursor × Page)}
    (hfollows : Follows next server walk.pages walk.cursor rest)
    (hnodup : (laterCursors rest).Nodup)
    (hunseen : ∀ later ∈ laterCursors rest, later ∉ walk.seen) :
    ∃ after, loop next server rest.length walk = some (after, .returned) ∧
      after.pages = walk.pages ++ rest := by
  generalize hhistory : walk.pages = history at hfollows
  generalize hcursor : walk.cursor = cursor at hfollows
  induction hfollows generalizing walk with
  | last hserver hends =>
      subst hhistory hcursor
      exact ⟨_, loop_ended (turn_returned hserver hends) 0, rfl⟩
  | @more _ _ page following rest hserver hnext hmoves hrest ih =>
      subst hhistory hcursor
      rw [laterCursors, List.map_cons, List.tail_cons, hrest.map_fst] at hnodup hunseen
      obtain ⟨hfresh, hrestNodup⟩ := List.nodup_cons.mp hnodup
      obtain ⟨hfollowing, hothers⟩ := List.forall_mem_cons.mp hunseen
      have hseen : ∀ later ∈ laterCursors rest, later ∉ (walk.follow page following).seen := by
        intro later hmem hbefore
        rcases List.mem_cons.mp hbefore with rfl | hbefore
        · exact hfresh hmem
        · exact hothers later hmem hbefore
      obtain ⟨after, hloop, hpages⟩ := ih hrestNodup hseen rfl rfl
      refine ⟨after, ?_, hpages.trans (List.append_assoc _ _ _)⟩
      rw [List.length_cons, loop_goesOn (turn_follows hserver hnext hmoves hfollowing), hloop]

/-- The only chains that a page is fetched twice for are those that lead back to the start, and
from there to an end. -/
def ReturnsToStart (next : Page → Option Cursor) (server : Server Cursor Page Error)
    (start : Cursor) : Prop :=
  ∃ pages, Follows next server [] start pages ∧ (laterCursors pages).Nodup ∧
    start ∈ laterCursors pages

theorem returned_iff {start : Cursor} {pages : List (Cursor × Page)} :
    (∃ fuel after, loop next server fuel { cursor := start } = some (after, .returned) ∧
        after.pages = pages) ↔
      Follows next server [] start pages ∧ (laterCursors pages).Nodup := by
  constructor
  · rintro ⟨fuel, after, hloop, rfl⟩
    obtain ⟨rest, hfollows, hpages, hnodup, -⟩ := follows_of_loop hloop
    rw [List.nil_append] at hpages
    rw [hpages]
    exact ⟨hfollows, hnodup⟩
  · rintro ⟨hfollows, hnodup⟩
    have hunseen : ∀ later ∈ laterCursors pages, later ∉ ([] : List Cursor) := by simp
    have hreturned : ∃ after, loop next server pages.length { cursor := start } =
        some (after, .returned) ∧ after.pages = [] ++ pages :=
      loop_of_follows hfollows hnodup hunseen
    obtain ⟨after, hloop, hpages⟩ := hreturned
    exact ⟨_, after, hloop, hpages⟩

omit [DecidableEq Cursor] in
theorem nodup_iff {start : Cursor} (hfollows : Follows next server [] start pages) :
    (pages.map Prod.fst).Nodup ↔ (laterCursors pages).Nodup ∧ start ∉ laterCursors pages := by
  rw [hfollows.map_fst, List.nodup_cons, and_comm]

end Chains

/-! ## Servers that always answer alike -/

section Alike

variable {next : Page → Option Cursor} {server : Server Cursor Page Error}
  {history pages : List (Cursor × Page)} {cursor : Cursor}

/-- The answer depends on the cursor only. -/
def Stable (server : Server Cursor Page Error) : Prop :=
  ∀ history other cursor, server history cursor = server other cursor

/-- Behind a page that does not end a chain comes its cursor. -/
theorem Follows.mem_laterCursors {asked following : Cursor} {page : Page}
    (hstable : Stable server) (hfollows : Follows next server history cursor pages)
    (hmem : asked ∈ pages.map Prod.fst) (hpage : server [] asked = .ok page)
    (hnext : next page = some following) (hmoves : following ≠ asked) :
    following ∈ laterCursors pages := by
  induction hfollows with
  | @last history cursor found hserver hends =>
      obtain rfl : asked = cursor := by simpa using hmem
      obtain rfl := Except.ok.inj (hpage.symm.trans ((hstable _ _ _).trans hserver))
      exact absurd (hends following hnext) hmoves
  | @more history cursor found other rest hserver hother hmovesOther hrest ih =>
      rw [laterCursors, List.map_cons, List.tail_cons]
      rcases List.mem_cons.mp hmem with hsame | hlater
      · obtain rfl : asked = cursor := hsame
        obtain rfl := Except.ok.inj (hpage.symm.trans ((hstable _ _ _).trans hserver))
        obtain rfl := Option.some.inj (hnext.symm.trans hother)
        rw [hrest.map_fst]
        exact List.mem_cons_self ..
      · exact List.mem_of_mem_tail (ih hlater)

/-- Such a server leads back to the start only to lead on to a cursor that was seen. -/
theorem not_returnsToStart_of_stable (hstable : Stable server) (start : Cursor) :
    ¬ReturnsToStart next server start := by
  rintro ⟨pages, hfollows, hnodup, hstart⟩
  cases hfollows with
  | last hserver hends => simp [laterCursors] at hstart
  | @more _ _ page following rest hserver hnext hmoves hrest =>
      rw [laterCursors, List.map_cons, List.tail_cons] at hnodup hstart
      have hagain := hrest.mem_laterCursors hstable hstart hserver hnext hmoves
      rw [hrest.map_fst] at hnodup
      exact (List.nodup_cons.mp hnodup).1 hagain

end Alike

end StellarSettle.CursorChains
