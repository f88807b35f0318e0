import StellarSettle.Core.CursorChains
import StellarSettle.Indexer.EventIndexerService

/-!
# The pages of a poll

A poll asks the RPC server for page after page.  What it returns is the chain of pages from its
starting cursor, but the starting cursor is not among those that it has seen: a server that leads
back to it is asked for it again.
-/

namespace StellarSettle.PagingLoop

open StellarSettle.ContractEventBus
open StellarSettle.CursorChains
open StellarSettle.EventIndexerService

variable {Value : Type}

/-! ## Requests -/

/-- The parameters that change from page to page. -/
structure GetEventsRequest where
  startLedger : Option ℕ
  cursor : Option String
  deriving DecidableEq, Repr

/-- An empty cursor is none. -/
def present (cursor : Option String) : Option String := cursor.filter (· ≠ "")

/-- The ledger goes with the first request, unless that has a cursor. -/
def params (startLedger : ℕ) : Option String → GetEventsRequest
  | some cursor => { startLedger := none, cursor := some cursor }
  | none =>
      { startLedger := if 1 < startLedger then some startLedger else none, cursor := none }

/-- The RPC server answers by all that it was asked before. -/
abbrev Rpc (Value : Type) :=
  List (GetEventsRequest × Response Value) → GetEventsRequest → Except String (Response Value)

/-! ## Steps of one poll -/

structure Polling (Value : Type) where
  process : Process Value
  fetched : List (GetEventsRequest × Response Value)

/-- One step of the poll.  A failed request fails the poll. -/
def stepPoll (config : Config) (rpc : Rpc Value) (store : Store Value) (indexer : Indexer)
    (polling : Polling Value) : Polling Value :=
  match polling.process with
  | .pollContractEvents thenIngest options (.pages walk) =>
      let request := params walk.startLedger (present walk.cursor)
      match rpc polling.fetched request with
      | .error message => { polling with process := .ended (.thrown message) }
      | .ok response =>
          { process :=
              (advancePoll config { response := response } store indexer thenIngest options
                (.pages walk)).process
            fetched := polling.fetched ++ [(request, response)] }
  | .pollContractEvents thenIngest options stage =>
      { polling with
        process := (advancePoll config {} store indexer thenIngest options stage).process }
  | _ => polling

/-- What the poll finds at each of its steps: other calls change the tables and the service
meanwhile. -/
abbrev Worlds (Value : Type) := ℕ → Store Value × Indexer

def pollAfter (config : Config) (rpc : Rpc Value) (worlds : Worlds Value)
    (first : Polling Value) : ℕ → Polling Value
  | 0 => first
  | steps + 1 =>
      stepPoll config rpc (worlds steps).1 (worlds steps).2
        (pollAfter config rpc worlds first steps)

/-- A poll that has found its starting ledger. -/
def enterLoop (startLedger : ℕ) (options : PollEventsOptions) : Polling Value :=
  { process :=
      .pollContractEvents false options
        (.pages { startLedger := startLedger, cursor := options.cursor })
    fetched := [] }

/-! ## The loop as one along a chain -/

/-- The cursor that a page hands out. -/
def nextCursor (response : Response Value) : Option (Option String) :=
  (present response.cursor).map some

/-- The server as the loop sees it, by the cursors of the requests. -/
def asServer (rpc : Rpc Value) (startLedger : ℕ) :
    Server (Option String) (Response Value) String := fun pages cursor =>
  rpc (pages.map fun page => (params startLedger page.1, page.2)) (params startLedger cursor)

def fetchedPages (startLedger : ℕ) (pages : List (Option String × Response Value)) :
    List (GetEventsRequest × Response Value) :=
  pages.map fun page => (params startLedger page.1, page.2)

def pageEvents (pages : List (Option String × Response Value)) :
    List (DecodedSorobanEvent Value) :=
  pages.flatMap fun page => page.2.events

theorem present_eq_some {cursor : Option String} {name : String} (hname : name ≠ "") :
    present cursor = some name ↔ cursor = some name := by
  rw [present, Option.filter_eq_some_iff]
  simp [hname]

theorem ne_empty_of_present {cursor : Option String} {name : String}
    (hpresent : present cursor = some name) : name ≠ "" := by
  rw [present, Option.filter_eq_some_iff] at hpresent
  simpa using hpresent.2

theorem params_injective (startLedger : ℕ) : Function.Injective (params startLedger) := by
  intro left right hsame
  cases left <;> cases right <;> simp_all [params]

section Steps

variable {config : Config} {store : Store Value} {indexer : Indexer} {thenIngest : Bool}
  {options : PollEventsOptions} {walk : EventIndexerService.Walk Value}
  {response : Response Value} {following : String}

theorem process_lastPage
    (hends : ∀ name, present response.cursor = some name → walk.cursor = some name) :
    (advancePoll config { response := response } store indexer thenIngest options
        (.pages walk)).process =
      .pollContractEvents thenIngest options (.lag (walk.read response) .memory) := by
  cases hpresent : present response.cursor with
  | none =>
      rw [present] at hpresent
      simp only [advancePoll, hpresent]
  | some name =>
      have hsame := hends name hpresent
      rw [present] at hpresent
      simp only [advancePoll, hpresent, hsame, if_true]

theorem process_repeated (hpresent : present response.cursor = some following)
    (hmoves : walk.cursor ≠ some following) (hseen : following ∈ walk.seenCursors) :
    (advancePoll config { response := response } store indexer thenIngest options
        (.pages walk)).process =
      .ended (.thrown "Soroban RPC returned a repeated event cursor.") := by
  rw [present] at hpresent
  simp only [advancePoll, hpresent, if_neg hmoves, if_pos hseen]

theorem process_follows (hpresent : present response.cursor = some following)
    (hmoves : walk.cursor ≠ some following) (hunseen : following ∉ walk.seenCursors) :
    (advancePoll config { response := response } store indexer thenIngest options
        (.pages walk)).process =
      .pollContractEvents thenIngest options
        (.pages { walk.read response with
          cursor := some following
          seenCursors := following :: walk.seenCursors }) := by
  rw [present] at hpresent
  simp only [advancePoll, hpresent, if_neg hmoves, if_neg hunseen]

end Steps

section Runs

variable {config : Config} {rpc : Rpc Value} {worlds : Worlds Value} {first : Polling Value}
  {options : PollEventsOptions} {startLedger : ℕ}
  {walk : EventIndexerService.Walk Value}
  {along after : CursorChains.Walk (Option String) (Response Value)}

/-- The poll has read the pages of the chain so far. -/
structure Reads (startLedger : ℕ) (walk : EventIndexerService.Walk Value)
    (along : CursorChains.Walk (Option String) (Response Value)) : Prop where
  startLedger_eq : walk.startLedger = startLedger
  cursor_eq : present walk.cursor = along.cursor
  seen_eq : walk.seenCursors.map some = along.seen
  events_eq : walk.decodedEvents = pageEvents along.pages

/-- A poll that stands at a request. -/
def asking (options : PollEventsOptions) (startLedger : ℕ)
    (walk : EventIndexerService.Walk Value)
    (along : CursorChains.Walk (Option String) (Response Value)) : Polling Value :=
  { process := .pollContractEvents false options (.pages walk)
    fetched := fetchedPages startLedger along.pages }

theorem Reads.read (hreads : Reads startLedger walk along) (response : Response Value) :
    (walk.read response).decodedEvents = pageEvents (along.read response).pages := by
  simp [EventIndexerService.Walk.read, CursorChains.Walk.read, hreads.events_eq, pageEvents]

/-- The loop goes on with the cursor of the page. -/
def followed (walk : EventIndexerService.Walk Value) (response : Response Value)
    (name : String) : EventIndexerService.Walk Value :=
  { walk.read response with
    cursor := some name
    seenCursors := name :: walk.seenCursors }

theorem Reads.follow (hreads : Reads startLedger walk along) (response : Response Value)
    {name : String} (hname : name ≠ "") :
    Reads startLedger (followed walk response name) (along.follow response (some name)) where
  startLedger_eq := hreads.startLedger_eq
  cursor_eq := (present_eq_some hname).mpr rfl
  seen_eq := congrArg (some name :: ·) hreads.seen_eq
  events_eq := hreads.read response

theorem Reads.fetched (hreads : Reads startLedger walk along) (response : Response Value) :
    fetchedPages startLedger along.pages ++
        [(params walk.startLedger (present walk.cursor), response)] =
      fetchedPages startLedger (along.read response).pages := by
  simp [fetchedPages, CursorChains.Walk.read, hreads.startLedger_eq, hreads.cursor_eq]

/-- The answer that the loop gets is that of the server along the chain. -/
theorem Reads.answer (hreads : Reads startLedger walk along) :
    rpc (fetchedPages startLedger along.pages) (params walk.startLedger (present walk.cursor)) =
      asServer rpc startLedger along.pages along.cursor := by
  rw [asServer, hreads.startLedger_eq, hreads.cursor_eq, fetchedPages]

theorem Reads.moves_iff (hreads : Reads startLedger walk along) {name : String}
    (hname : name ≠ "") : walk.cursor = some name ↔ some name = along.cursor := by
  rw [← hreads.cursor_eq, eq_comm (a := some name), present_eq_some hname]

theorem stepPoll_failed {store : Store Value} {indexer : Indexer} {message : String}
    (hreads : Reads startLedger walk along)
    (hserver : asServer rpc startLedger along.pages along.cursor = .error message) :
    stepPoll config rpc store indexer (asking options startLedger walk along) =
      { process := .ended (.thrown message), fetched := fetchedPages startLedger along.pages } := by
  rw [← hreads.answer] at hserver
  simp only [stepPoll, asking, hserver]

theorem stepPoll_answered {store : Store Value} {indexer : Indexer} {response : Response Value}
    (hreads : Reads startLedger walk along)
    (hserver : asServer rpc startLedger along.pages along.cursor = .ok response) :
    stepPoll config rpc store indexer (asking options startLedger walk along) =
      { process :=
          (advancePoll config { response := response } store indexer false options
            (.pages walk)).process
        fetched := fetchedPages startLedger (along.read response).pages } := by
  rw [← hreads.answer] at hserver
  simp only [stepPoll, asking, hserver, hreads.fetched]

/-- How the poll stands when the loop along the chain has ended. -/
def LoopEnded (options : PollEventsOptions) (startLedger : ℕ)
    (after : CursorChains.Walk (Option String) (Response Value)) (polling : Polling Value) :
    Ending String → Prop
  | .returned => ∃ last : EventIndexerService.Walk Value,
      polling = { process := .pollContractEvents false options (.lag last .memory)
                  fetched := fetchedPages startLedger after.pages } ∧
        last.decodedEvents = pageEvents after.pages
  | _ => ∃ message, polling.process = .ended (.thrown message)

/-- The poll does what the loop along the chain does, turn by turn. -/
theorem exists_loopEnded {fuel steps : ℕ} {ending : Ending String}
    (hloop : loop nextCursor (asServer rpc startLedger) fuel along = some (after, ending))
    (hreads : Reads startLedger walk along)
    (hstate : pollAfter config rpc worlds first steps = asking options startLedger walk along) :
    ∃ later, LoopEnded options startLedger after (pollAfter config rpc worlds first later)
      ending := by
  induction fuel generalizing along walk steps with
  | zero => cases hloop
  | succ fuel ih =>
      rcases request_cases nextCursor (asServer rpc startLedger) along with
        ⟨message, hserver⟩ | ⟨response, hserver, hends | ⟨following, hnext, hmoves⟩⟩
      · rw [loop_ended (turn_failed hserver)] at hloop
        cases hloop
        refine ⟨steps + 1, message, ?_⟩
        rw [pollAfter, hstate, stepPoll_failed hreads hserver]
      · rw [loop_ended (turn_returned hserver hends)] at hloop
        cases hloop
        refine ⟨steps + 1, walk.read response, ?_, hreads.read response⟩
        rw [pollAfter, hstate, stepPoll_answered hreads hserver, process_lastPage]
        intro name hname
        rw [hreads.moves_iff (ne_empty_of_present hname)]
        exact hends (some name) (by rw [nextCursor, hname]; rfl)
      obtain ⟨name, hpresent, rfl⟩ : ∃ name, present response.cursor = some name ∧
          following = some name := by
        rw [nextCursor, Option.map_eq_some_iff] at hnext
        obtain ⟨name, hname, rfl⟩ := hnext
        exact ⟨name, hname, rfl⟩
      have hother : walk.cursor ≠ some name := by
        rwa [ne_eq, hreads.moves_iff (ne_empty_of_present hpresent)]
      have hseenIff : some name ∈ along.seen ↔ name ∈ walk.seenCursors := by
        rw [← hreads.seen_eq, List.mem_map_of_injective (Option.some_injective _)]
      by_cases hrepeated : some name ∈ along.seen
      · rw [loop_ended (turn_repeated hserver hnext hmoves hrepeated)] at hloop
        cases hloop
        refine ⟨steps + 1, "Soroban RPC returned a repeated event cursor.", ?_⟩
        rw [pollAfter, hstate, stepPoll_answered hreads hserver,
          process_repeated hpresent hother (hseenIff.mp hrepeated)]
      · rw [loop_goesOn (turn_follows hserver hnext hmoves hrepeated)] at hloop
        have hunseen : name ∉ walk.seenCursors := fun hmem => hrepeated (hseenIff.mpr hmem)
        have hnextState : pollAfter config rpc worlds first (steps + 1) =
            asking options startLedger (followed walk response name)
              (along.follow response (some name)) := by
          rw [pollAfter, hstate, stepPoll_answered hreads hserver,
            process_follows hpresent hother hunseen]
          rfl
        exact ih hloop (hreads.follow response (ne_empty_of_present hpresent)) hnextState

/-! ## The end of the poll -/

theorem pollAfter_of_ended {steps : ℕ} {result : Result Value}
    (hended : (pollAfter config rpc worlds first steps).process = .ended result) (more : ℕ) :
    pollAfter config rpc worlds first (steps + more) = pollAfter config rpc worlds first steps := by
  induction more with
  | zero => rfl
  | succ more ih =>
      rw [← add_assoc, pollAfter, ih, stepPoll]
      simp only [hended]

/-- A poll ends in one way. -/
theorem pollAfter_unique {left right : ℕ} {one other : Result Value}
    (hleft : (pollAfter config rpc worlds first left).process = .ended one)
    (hright : (pollAfter config rpc worlds first right).process = .ended other) :
    pollAfter config rpc worlds first left = pollAfter config rpc worlds first right := by
  rw [← pollAfter_of_ended hleft right, ← pollAfter_of_ended hright left, add_comm]

/-- Reads of the last ledger that are still to come. -/
def readsLeft : LedgerRead → ℕ
  | .memory => 3
  | .checkpoint => 2
  | .eventLog => 1
  | .found _ => 0

theorem readsLeft_lt {store : Store Value} {indexer reader : Indexer} {read following : LedgerRead}
    (hread : readLedger store indexer read = (reader, .inl following)) :
    readsLeft following < readsLeft read := by
  cases read <;> simp only [readLedger] at hread
  · split at hread <;> cases hread
    simp [readsLeft]
  · split at hread <;> cases hread <;> simp [readsLeft]
  · split at hread <;> cases hread
    simp [readsLeft]
  · cases hread

/-- From the lag check on the poll returns what it has read. -/
theorem exists_polled {steps : ℕ} {read : LedgerRead}
    {fetched : List (GetEventsRequest × Response Value)}
    (hstate : pollAfter config rpc worlds first steps =
      { process := .pollContractEvents false options (.lag walk read), fetched := fetched }) :
    ∃ later, pollAfter config rpc worlds first later =
      { process := .ended (.polled walk.decodedEvents), fetched := fetched } := by
  induction hleft : readsLeft read using Nat.strong_induction_on generalizing read steps with
  | _ left ih =>
      have hnext : pollAfter config rpc worlds first (steps + 1) =
          { process := (advancePoll config {} (worlds steps).1 (worlds steps).2 false options
              (.lag walk read)).process
            fetched := fetched } := by
        rw [pollAfter, hstate, stepPoll]
      cases hread : readLedger (worlds steps).1 (worlds steps).2 read with
      | mk reader outcome =>
          cases outcome with
          | inl following =>
              simp only [advancePoll, hread] at hnext
              exact ih _ (hleft ▸ readsLeft_lt hread) hnext rfl
          | inr ledger =>
              simp only [advancePoll, hread, endPoll] at hnext
              exact ⟨steps + 1, hnext⟩

/-! ## Each page once -/

/-- The poll ends; what it returns are the events of the pages along the chain from its starting
cursor, in their order, and each page was asked for once. -/
structure PollsPagesOnce (config : Config) (rpc : Rpc Value) (worlds : Worlds Value)
    (startLedger : ℕ) (options : PollEventsOptions) : Prop where
  ends : ∃ steps result,
    (pollAfter config rpc worlds (enterLoop startLedger options) steps).process = .ended result
  returns : ∀ steps events,
    (pollAfter config rpc worlds (enterLoop startLedger options) steps).process =
        .ended (.polled events) →
      ∃ pages, Follows nextCursor (asServer rpc startLedger) [] (present options.cursor) pages ∧
        (pollAfter config rpc worlds (enterLoop startLedger options) steps).fetched =
          fetchedPages startLedger pages ∧
        events = pageEvents pages ∧ ((fetchedPages startLedger pages).map Prod.fst).Nodup

/-- The cursors of all answers are of a finite set. -/
def CursorsFrom (rpc : Rpc Value) (cursors : Finset String) : Prop :=
  ∀ history request response, rpc history request = .ok response →
    ∀ name ∈ response.cursor, name ∈ cursors

theorem nodup_requests_iff (startLedger : ℕ)
    (pages : List (Option String × Response Value)) :
    ((fetchedPages startLedger pages).map Prod.fst).Nodup ↔ (pages.map Prod.fst).Nodup := by
  have hrequests : (fetchedPages startLedger pages).map Prod.fst =
      (pages.map Prod.fst).map (params startLedger) := by
    simp [fetchedPages, List.map_map, Function.comp_def]
  rw [hrequests, List.nodup_map_iff (params_injective startLedger)]

theorem nextCursor_mem {cursors : Finset String} (hcursors : CursorsFrom rpc cursors)
    {history : List (Option String × Response Value)} {cursor following : Option String}
    {response : Response Value} (hserver : asServer rpc startLedger history cursor = .ok response)
    (hnext : following ∈ nextCursor response) :
    following ∈ cursors.map Function.Embedding.some := by
  obtain ⟨name, hname, rfl⟩ := Option.map_eq_some_iff.mp hnext
  rw [Finset.mem_map]
  exact ⟨name, hcursors _ _ _ hserver _
    ((present_eq_some (ne_empty_of_present hname)).mp hname), rfl⟩

/-- The loop along the chain that a poll goes through. -/
def chainStart (options : PollEventsOptions) :
    CursorChains.Walk (Option String) (Response Value) :=
  { cursor := present options.cursor }

theorem reads_enterLoop (startLedger : ℕ) (options : PollEventsOptions) :
    Reads startLedger { startLedger := startLedger, cursor := options.cursor }
      (chainStart options : CursorChains.Walk (Option String) (Response Value)) :=
  ⟨rfl, rfl, rfl, rfl⟩

/-- The poll ends as the loop along the chain does. -/
theorem exists_ended_of_loop {fuel : ℕ} {ending : Ending String}
    (hloop : loop nextCursor (asServer rpc startLedger) fuel (chainStart options) =
      some (after, ending)) (config : Config) (worlds : Worlds Value) :
    ∃ steps,
      (ending = .returned ∧
        pollAfter config rpc worlds (enterLoop startLedger options) steps =
          { process := .ended (.polled (pageEvents after.pages))
            fetched := fetchedPages startLedger after.pages }) ∨
      (ending ≠ .returned ∧ ∃ message,
        (pollAfter config rpc worlds (enterLoop startLedger options) steps).process =
          .ended (.thrown message)) := by
  have hstart : pollAfter config rpc worlds (enterLoop startLedger options) 0 =
      asking options startLedger { startLedger := startLedger, cursor := options.cursor }
        (chainStart options) := rfl
  obtain ⟨later, hended⟩ := exists_loopEnded hloop (reads_enterLoop startLedger options) hstart
  cases ending with
  | returned =>
      obtain ⟨last, hlag, hevents⟩ := hended
      obtain ⟨steps, hpolled⟩ := exists_polled hlag
      exact ⟨steps, .inl ⟨rfl, hevents ▸ hpolled⟩⟩
  | repeated => exact ⟨later, .inr ⟨by simp, hended⟩⟩
  | failed message => exact ⟨later, .inr ⟨by simp, hended⟩⟩

/-- Every poll of a server with finitely many cursors ends; what it returns are the pages of the
chain, and no cursor that it followed came up twice. -/
theorem exists_ended {cursors : Finset String} (hcursors : CursorsFrom rpc cursors)
    (config : Config) (worlds : Worlds Value) (startLedger : ℕ) (options : PollEventsOptions) :
    ∃ steps,
      (∃ pages, Follows nextCursor (asServer rpc startLedger) [] (present options.cursor) pages ∧
        (laterCursors pages).Nodup ∧
        pollAfter config rpc worlds (enterLoop startLedger options) steps =
          { process := .ended (.polled (pageEvents pages))
            fetched := fetchedPages startLedger pages }) ∨
      ∃ message, (pollAfter config rpc worlds (enterLoop startLedger options) steps).process =
        .ended (.thrown message) := by
  have hfrom : ∀ history cursor response,
      asServer rpc startLedger history cursor = .ok response →
        ∀ following ∈ nextCursor response, following ∈ cursors.map Function.Embedding.some :=
    fun _ _ _ hserver _ hnext => nextCursor_mem hcursors hserver hnext
  have hloops : ∃ after ending, loop nextCursor (asServer rpc startLedger)
      ((cursors.map Function.Embedding.some).card + 1) (chainStart options) =
        some (after, ending) :=
    exists_ending hfrom List.nodup_nil (by simp [chainStart]) (Nat.lt_succ_self _)
  obtain ⟨after, ending, hloop⟩ := hloops
  obtain ⟨steps, ⟨rfl, hpolled⟩ | ⟨-, hthrown⟩⟩ := exists_ended_of_loop hloop config worlds
  · obtain ⟨hfollows, hnodup⟩ := returned_iff.mp ⟨_, after, hloop, rfl⟩
    exact ⟨steps, .inl ⟨after.pages, hfollows, hnodup, hpolled⟩⟩
  · exact ⟨steps, .inr hthrown⟩

/-- A poll of a server with finitely many cursors reads each page of the chain once exactly when
no chain that ends leads back to the starting cursor. -/
theorem pollsPagesOnce_iff {cursors : Finset String} (hcursors : CursorsFrom rpc cursors)
    (config : Config) (worlds : Worlds Value) (startLedger : ℕ) (options : PollEventsOptions) :
    PollsPagesOnce config rpc worlds startLedger options ↔
      ¬ReturnsToStart nextCursor (asServer rpc startLedger) (present options.cursor) := by
  constructor
  · rintro ⟨-, hreturns⟩ ⟨pages, hfollows, hnodup, hstart⟩
    obtain ⟨fuel, after, hloop, rfl⟩ := returned_iff.mpr ⟨hfollows, hnodup⟩
    obtain ⟨steps, ⟨-, hpolled⟩ | ⟨hother, -⟩⟩ := exists_ended_of_loop hloop config worlds
    · obtain ⟨pages, hchain, hfetched, -, honce⟩ := hreturns steps _ (by rw [hpolled])
      rw [← hfetched, hpolled, nodup_requests_iff, nodup_iff hfollows] at honce
      exact honce.2 hstart
    · exact hother rfl
  · intro hnever
    obtain ⟨last, ⟨pages, hfollows, hnodup, hended⟩ | ⟨message, hended⟩⟩ :=
      exists_ended hcursors config worlds startLedger options
    · refine ⟨⟨last, _, by rw [hended]⟩, fun steps events hpolled => ?_⟩
      have hsame := pollAfter_unique hpolled (by rw [hended])
      rw [hsame, hended] at hpolled ⊢
      cases hpolled
      have honce : (pages.map Prod.fst).Nodup :=
        (nodup_iff hfollows).mpr ⟨hnodup, fun hstart => hnever ⟨pages, hfollows, hnodup, hstart⟩⟩
      exact ⟨pages, hfollows, rfl, rfl, (nodup_requests_iff startLedger _).mpr honce⟩
    · refine ⟨⟨last, _, hended⟩, fun steps events hpolled => ?_⟩
      have hsame := pollAfter_unique hpolled hended
      rw [hsame, hended] at hpolled
      cases hpolled

/-- A server that answers a request alike whenever it comes has no way back to the start. -/
theorem not_returnsToStart_of_sameAnswers
    (hsame : ∀ history other request, rpc history request = rpc other request)
    (startLedger : ℕ) (start : Option String) :
    ¬ReturnsToStart nextCursor (asServer rpc startLedger) start := by
  have hstable : Stable (asServer rpc startLedger) := fun history other cursor => hsame _ _ _
  exact not_returnsToStart_of_stable hstable start

end Runs

/-! ## Two servers -/

def noHandlers : Config := { eventBus := createContractEventBus [] }

/-- Nothing else happens while the poll runs. -/
def undisturbed : Worlds Unit := fun _ => ({}, {})

/-- Two pages: the first request finds the cursor of the second one. -/
def twoPages : Rpc Unit := fun _ request =>
  .ok { cursor := if request.cursor = none then some "a" else none }

/-- A server that leads from `a` to `b` and back, and then knows no further. -/
def thereAndBack : Rpc Unit := fun history _ =>
  .ok { cursor := if history.length = 0 then some "b" else if history.length = 1 then some "a"
    else none }

theorem twoPages_pollsPagesOnce :
    CursorsFrom twoPages {"a"} ∧ PollsPagesOnce noHandlers twoPages undisturbed 7 {} := by
  have hcursors : CursorsFrom twoPages {"a"} := by
    intro history request response hanswer name hname
    cases hanswer
    split_ifs at hname <;> simp_all
  exact ⟨hcursors, (pollsPagesOnce_iff hcursors noHandlers undisturbed 7 {}).mpr
    (not_returnsToStart_of_sameAnswers (fun _ _ _ => rfl) 7 _)⟩

/-- The first page is asked for again. -/
theorem thereAndBack_repeatsStart :
    CursorsFrom thereAndBack {"a", "b"} ∧
      (pollAfter noHandlers thereAndBack undisturbed (enterLoop 7 { cursor := some "a" })
          6).fetched.map Prod.fst = [⟨none, some "a"⟩, ⟨none, some "b"⟩, ⟨none, some "a"⟩] ∧
      ¬PollsPagesOnce noHandlers thereAndBack undisturbed 7 { cursor := some "a" } := by
  have hrequests : (pollAfter noHandlers thereAndBack undisturbed
      (enterLoop 7 { cursor := some "a" }) 6).fetched.map Prod.fst =
        [⟨none, some "a"⟩, ⟨none, some "b"⟩, ⟨none, some "a"⟩] := by decide
  refine ⟨?_, hrequests, fun honce => ?_⟩
  · intro history request response hanswer name hname
    cases hanswer
    split_ifs at hname <;> simp_all
  · obtain ⟨pages, -, hfetched, -, hnodup⟩ := honce.returns 6 [] rfl
    rw [← hfetched, hrequests] at hnodup
    exact absurd hnodup (by decide)

end StellarSettle.PagingLoop
