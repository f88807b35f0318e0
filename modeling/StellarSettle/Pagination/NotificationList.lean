import StellarSettle.Pagination.StoredTimes

/-!
# The notifications of a user

`list` gathers the notifications and three tables of events in memory, where it does not read
its cursor, or, without a data source, lists the notifications alone.  There the condition on
the user is an `OR` without brackets, so the filters that are added to it bind its second
alternative only.
-/

namespace StellarSettle.NotificationList

open StellarSettle.Entities (Timestamp Uuid)
open StellarSettle.OrderedRows
open StellarSettle.PageWalk
open StellarSettle.SelectQuery
open StellarSettle.StoredTimes
open Std (ReflCmp TransCmp)

/-! ## Rows -/

/-- The text of an account: the id of a user, or a wallet address, which is no uuid. -/
inductive AccountText where
  | uuid (id : Uuid)
  | address (text : String)
  deriving DecidableEq, Repr

structure Notification where
  id : Uuid
  userId : Uuid
  type : String
  title : String
  message : String
  read : Bool
  createdAt : StoredTime
  timestamp : StoredTime
  deriving DecidableEq, Repr

/-- A KYC event, an investment event or a settlement event. -/
structure AccountEvent where
  id : Uuid
  walletAddress : AccountText
  userId : Option AccountText
  type : String
  title : String
  message : String
  read : Bool
  createdAt : StoredTime
  deriving DecidableEq, Repr

structure NotificationTables where
  notifications : UniqueRows Notification.id
  kycEvents : UniqueRows AccountEvent.id
  investmentEvents : UniqueRows AccountEvent.id
  settlementEvents : UniqueRows AccountEvent.id

/-- An entry of a page. -/
structure Entry where
  id : Uuid
  userId : AccountText
  type : String
  title : String
  message : String
  read : Bool
  createdAt : Timestamp
  timestamp : Timestamp
  deriving DecidableEq, Repr

inductive SortOrder where
  | asc
  | desc
  deriving DecidableEq, Repr

/-- The base64 text of a date, two colons and an id, where it is one. -/
inductive NotificationCursor where
  | parts (timestamp : Timestamp) (id : AccountText)
  | other
  deriving DecidableEq, Repr

/-- The options but for the cursor.  A wallet address that is missing or empty is none. -/
structure ListNotificationsOptions where
  userId : Uuid
  walletAddress : Option AccountText
  page : ℕ
  limit : ℕ
  read : Option Bool
  type : Option String
  sortOrder : SortOrder
  deriving DecidableEq, Repr

structure NotificationPage where
  data : List Entry
  total : ℕ
  page : ℕ
  limit : ℕ
  totalPages : ℕ
  nextCursor : Option NotificationCursor
  hasMore : Bool
  deriving DecidableEq, Repr

inductive ListError where
  | http (status : ℕ) (message : String)
  | queryFailed
  deriving DecidableEq, Repr

def ListNotificationsOptions.wallet (options : ListNotificationsOptions) : AccountText :=
  options.walletAddress.getD (.uuid options.userId)

/-- A text that is compared with a uuid column. -/
def AccountText.uuid? : AccountText → Except ListError Uuid
  | .uuid id => .ok id
  | .address _ => .error .queryFailed

def Notification.entry (notification : Notification) : Entry where
  id := notification.id
  userId := .uuid notification.userId
  type := notification.type
  title := notification.title
  message := notification.message
  read := notification.read
  createdAt := toDate notification.createdAt
  timestamp := toDate notification.timestamp

def AccountEvent.entry (userId : Uuid) (event : AccountEvent) : Entry where
  id := event.id
  userId := event.userId.getD (.uuid userId)
  type := event.type
  title := event.title
  message := event.message
  read := event.read
  createdAt := toDate event.createdAt
  timestamp := toDate event.createdAt

/-- `read` and `type`, where they are given. -/
def ListNotificationsOptions.matches (options : ListNotificationsOptions) (read : Bool)
    (type : String) : Bool :=
  (options.read.all fun wanted => decide (read = wanted))
    && options.type.all fun wanted => decide (type = wanted)

/-! ## The aggregated list -/

/-- A query that fails leaves its table out. -/
def gatherNotifications (tables : NotificationTables) (options : ListNotificationsOptions) :
    List Entry :=
  match options.wallet with
  | .uuid wallet =>
    (tables.notifications.rows.filter fun row =>
      decide (row.userId = options.userId ∨ row.userId = wallet)).map Notification.entry
  | .address _ => []

def gatherEvents (options : ListNotificationsOptions) (events : List AccountEvent) : List Entry :=
  (events.filter fun event =>
    decide (event.walletAddress = options.wallet ∨ event.userId = some (.uuid options.userId))).map
      (AccountEvent.entry options.userId)

def aggregate (tables : NotificationTables) (options : ListNotificationsOptions) : List Entry :=
  gatherNotifications tables options ++ gatherEvents options tables.kycEvents.rows
    ++ gatherEvents options tables.investmentEvents.rows
    ++ gatherEvents options tables.settlementEvents.rows

def compareEntries : SortOrder → Entry → Entry → Ordering
  | .asc, left, right => compare left.createdAt right.createdAt
  | .desc, left, right => compare right.createdAt left.createdAt

def entryCursor (timestamp : Timestamp) (id : Uuid) : NotificationCursor :=
  .parts timestamp (.uuid id)

/-- `Math.ceil(total / limit)`. -/
def totalPages (total limit : ℕ) : ℕ := (total + limit - 1) / limit

def listAggregated (tables : NotificationTables) (options : ListNotificationsOptions) :
    NotificationPage :=
  let filtered := (aggregate tables options).filter fun entry =>
    options.matches entry.read entry.type
  let sorted := sortRows (compareEntries options.sortOrder) filtered
  let startIndex := (options.page - 1) * options.limit
  let data := (sorted.drop startIndex).take options.limit
  let hasMore := decide (startIndex + options.limit < sorted.length)
  { data := data
    total := sorted.length
    page := options.page
    limit := options.limit
    totalPages := totalPages sorted.length options.limit
    nextCursor := if hasMore then
        data.getLast?.map fun last => entryCursor last.createdAt last.id
      else none
    hasMore := hasMore }

/-! ## The plain list -/

def compareNotifications : String → Notification → Notification → Ordering
  | "n.timestamp" => compareOn Notification.timestamp
  | "n.id" => compareOn Notification.id
  | _ => fun _ _ => .eq

def notificationColumns : Columns Notification where
  compareBy := compareNotifications
  ordered column := by
    unfold compareNotifications
    split <;> infer_instance

def SortOrder.direction : SortOrder → Direction
  | .asc => .asc
  | .desc => .desc

/-- `n.timestamp op :timestamp OR (n.timestamp = :timestamp AND n.id op :id)`. -/
def past (sortOrder : SortOrder) (place : Place) (row : Notification) : Bool :=
  match sortOrder with
  | .desc => place.precedes row.timestamp row.id
  | .asc =>
    decide (fromDate place.date < row.timestamp ∨
      (row.timestamp = fromDate place.date ∧ place.id < row.id))

/-- The filters that follow the cursor. -/
def filterMatching (options : ListNotificationsOptions) (query : SelectQueryBuilder Notification) :
    SelectQueryBuilder Notification :=
  let byRead := match options.read with
    | some read => query.andWhere fun row => decide (row.read = read)
    | none => query
  match options.type with
  | some type => byRead.andWhere fun row => decide (row.type = type)
  | none => byRead

/-- The notifications of the user or of the wallet. -/
def ofAccount (options : ListNotificationsOptions) (wallet : Uuid) :
    SelectQueryBuilder Notification :=
  .whereEither (fun row => decide (row.userId = options.userId))
    fun row => decide (row.userId = wallet)

def notificationQuery (options : ListNotificationsOptions) :
    Option NotificationCursor → Except ListError (SelectQueryBuilder Notification)
  | none => do
    let wallet ← options.wallet.uuid?
    .ok (filterMatching options
      ((ofAccount options wallet).skip ((options.page - 1) * options.limit)))
  | some .other => .error (.http 400 "Invalid notification cursor.")
  | some (.parts timestamp id) => do
    let wallet ← options.wallet.uuid?
    let id ← id.uuid?
    .ok (filterMatching options
      ((ofAccount options wallet).andWhere (past options.sortOrder ⟨timestamp, id⟩)))

def ordered (options : ListNotificationsOptions) (query : SelectQueryBuilder Notification) :
    SelectQueryBuilder Notification :=
  (query.orderBy "n.timestamp" options.sortOrder.direction).addOrderBy "n.id"
    options.sortOrder.direction

def listPlain (tables : NotificationTables) (options : ListNotificationsOptions)
    (cursor : Option NotificationCursor) : Except ListError NotificationPage := do
  let query ← notificationQuery options cursor
  let rows := ((ordered options query).take (options.limit + 1)).getMany notificationColumns
    tables.notifications.rows
  let total := ((ordered options query).selected notificationColumns
    tables.notifications.rows).length
  let page := cutPage options.limit (fun last => entryCursor (toDate last.timestamp) last.id) rows
  .ok
    { data := page.items.map Notification.entry
      total := total
      page := options.page
      limit := options.limit
      totalPages := totalPages total options.limit
      nextCursor := page.next
      hasMore := decide (options.limit < rows.length) }

/-- The list, which is aggregated where the data source is initialised. -/
def list (tables : NotificationTables) (initialised : Bool) (options : ListNotificationsOptions)
    (cursor : Option NotificationCursor) : Except ListError NotificationPage :=
  if initialised then .ok (listAggregated tables options) else listPlain tables options cursor

/-! ## Walks -/

/-- The entries of the pages that `nextCursor` leads to, from the first page on. -/
def followList (tables : NotificationTables) (initialised : Bool)
    (options : ListNotificationsOptions) (_ : ℕ) (cursor : Option NotificationCursor) :
    Except ListError (Page Entry NotificationCursor) :=
  (list tables initialised { options with page := 1 } cursor).map fun page =>
    ⟨page.data, page.nextCursor⟩

/-- The user's notifications that match. -/
def userNotifications (tables : NotificationTables) (options : ListNotificationsOptions) :
    List Notification :=
  tables.notifications.rows.filter fun row =>
    decide (row.userId = options.userId ∨ AccountText.uuid row.userId = options.wallet)
      && options.matches row.read row.type

/-- The user's events that match. -/
def userEvents (tables : NotificationTables) (options : ListNotificationsOptions) : List Entry :=
  (gatherEvents options tables.kycEvents.rows ++ gatherEvents options tables.investmentEvents.rows
    ++ gatherEvents options tables.settlementEvents.rows).filter fun entry =>
      options.matches entry.read entry.type

/-- The entries that match. -/
def matchingEntries (tables : NotificationTables) (initialised : Bool)
    (options : ListNotificationsOptions) : List Entry :=
  (userNotifications tables options).map Notification.entry
    ++ if initialised then userEvents tables options else []

/-! ## The aggregated list ends on its first page -/

section Aggregated

variable {tables : NotificationTables} {options : ListNotificationsOptions}

/-- What the aggregated list sorts. -/
def gathered (tables : NotificationTables) (options : ListNotificationsOptions) : List Entry :=
  (gatherNotifications tables options).filter (fun entry => options.matches entry.read entry.type)
    ++ userEvents tables options

/-- The aggregated page is the same for every cursor. -/
theorem followList_aggregated (tables : NotificationTables) (options : ListNotificationsOptions)
    (call : ℕ) (cursor : Option NotificationCursor) :
    followList tables true options call cursor = .ok
      ⟨(sortRows (compareEntries options.sortOrder) (gathered tables options)).take options.limit,
        if options.limit < (gathered tables options).length then
          ((sortRows (compareEntries options.sortOrder) (gathered tables options)).take
            options.limit).getLast?.map fun last => entryCursor last.createdAt last.id
        else none⟩ := by
  have hfiltered : (aggregate tables { options with page := 1 }).filter (fun entry =>
      options.matches entry.read entry.type) = gathered tables options := by
    simp only [aggregate, gathered, userEvents, List.filter_append, List.append_assoc]
    rfl
  have hlength : (sortRows (compareEntries options.sortOrder) (gathered tables options)).length =
      (gathered tables options).length := (sortRows_perm _ _).length_eq
  have hsorted : sortRows (compareEntries options.sortOrder)
      ((aggregate tables { options with page := 1 }).filter fun entry =>
        ({ options with page := 1 } : ListNotificationsOptions).matches entry.read entry.type) =
      sortRows (compareEntries options.sortOrder) (gathered tables options) :=
    congrArg _ hfiltered
  simp only [followList, list, listAggregated, if_true, Except.map, hsorted, hlength,
    Nat.sub_self, Nat.zero_mul, List.drop_zero, Nat.zero_add, decide_eq_true_iff]

/-- Where not all entries fit on a page, the walk never ends. -/
theorem not_walk_aggregated (hlimit : 1 ≤ options.limit)
    (hmore : options.limit < (gathered tables options).length) {call : ℕ}
    {cursor : Option NotificationCursor} {pages : List (List Entry)} :
    ¬ Walk (followList tables true options) call cursor pages := by
  intro hwalk
  induction hwalk with
  | last hpage hnext =>
      rw [followList_aggregated] at hpage
      obtain rfl := Except.ok.inj hpage
      simp only [if_pos hmore, Option.map_eq_none_iff, List.getLast?_eq_none_iff,
        List.take_eq_nil_iff] at hnext
      rcases hnext with hzero | hempty
      · omega
      · have hlength := (sortRows_perm (compareEntries options.sortOrder)
          (gathered tables options)).length_eq
        rw [hempty, List.length_nil] at hlength
        omega
  | more _ _ _ ih => exact ih

theorem walk_aggregated (hfits : (gathered tables options).length ≤ options.limit) :
    Walk (followList tables true options) 0 none
      [sortRows (compareEntries options.sortOrder) (gathered tables options)] := by
  have hlength := (sortRows_perm (compareEntries options.sortOrder)
    (gathered tables options)).length_eq
  have hpage := followList_aggregated tables options 0 none
  rw [if_neg (not_lt.mpr hfits), List.take_of_length_le (hlength.trans_le hfits)] at hpage
  exact Walk.last hpage rfl

/-- The notifications are left out where the wallet is an address. -/
theorem gathered_uuid {wallet : Uuid} (hwallet : options.wallet = .uuid wallet) :
    gathered tables options = matchingEntries tables true options := by
  have hnotifications : (gatherNotifications tables options).filter (fun entry =>
      options.matches entry.read entry.type) =
        (userNotifications tables options).map Notification.entry := by
    simp only [gatherNotifications, userNotifications, hwallet, List.filter_map,
      List.filter_filter, AccountText.uuid.injEq]
    apply congrArg
    apply List.filter_congr
    intro row _
    exact Bool.and_comm _ _
  rw [gathered, hnotifications]
  rfl

theorem gathered_address {address : String} (hwallet : options.wallet = .address address) :
    gathered tables options = userEvents tables options := by
  rw [gathered, gatherNotifications, hwallet]
  rfl

/-- The entries fit on one page, and no notification of the user is left out. -/
def OnOnePage (tables : NotificationTables) (options : ListNotificationsOptions) : Prop :=
  (matchingEntries tables true options).length ≤ options.limit ∧
    ((∃ wallet, options.wallet = .uuid wallet) ∨ userNotifications tables options = [])

theorem aggregated_returnsOnce_iff (hlimit : 1 ≤ options.limit) :
    ReturnsOnce (followList tables true options) (matchingEntries tables true options) ↔
      OnOnePage tables options := by
  have hsorted := sortRows_perm (compareEntries options.sortOrder) (gathered tables options)
  constructor
  · rintro ⟨pages, hwalk, hpages⟩
    have hfits : (gathered tables options).length ≤ options.limit :=
      not_lt.mp fun hmore => not_walk_aggregated hlimit hmore hwalk
    rw [hwalk.unique (walk_aggregated hfits), List.flatten_singleton] at hpages
    have hsame := (hsorted.symm.trans hpages).length_eq
    refine ⟨hsame.ge.trans hfits, ?_⟩
    cases hwallet : options.wallet with
    | uuid wallet => exact .inl ⟨wallet, rfl⟩
    | address address =>
        apply Or.inr
        rw [gathered_address hwallet, matchingEntries, List.length_append, List.length_map,
          if_pos rfl] at hsame
        exact List.length_eq_zero_iff.mp (by omega)
  · rintro ⟨hfits, hfound⟩
    have hgathered : gathered tables options = matchingEntries tables true options := by
      cases hwallet : options.wallet with
      | uuid wallet => exact gathered_uuid hwallet
      | address address =>
          obtain ⟨wallet, hother⟩ | hnone := hfound
          · rw [hwallet] at hother
            cases hother
          · rw [gathered_address hwallet, matchingEntries, hnone]
            rfl
    rw [← hgathered] at hfits ⊢
    refine ⟨_, walk_aggregated hfits, ?_⟩
    rw [List.flatten_singleton]
    exact hsorted

end Aggregated

/-! ## The plain list -/

/-- What the first page selects: all notifications of the user, and those of the wallet that
match. -/
def selects (options : ListNotificationsOptions) (wallet : Uuid) (row : Notification) : Bool :=
  decide (row.userId = options.userId)
    || (decide (row.userId = wallet) && options.matches row.read row.type)

def notificationOrder (sortOrder : SortOrder) : Notification → Notification → Ordering :=
  notificationColumns.compareRows
    [("n.timestamp", sortOrder.direction), ("n.id", sortOrder.direction)]

instance (sortOrder : SortOrder) : TransCmp (notificationOrder sortOrder) :=
  inferInstanceAs (TransCmp (notificationColumns.compareRows _))

/-- The notifications as they are listed. -/
def plainListed (tables : NotificationTables) (options : ListNotificationsOptions)
    (wallet : Uuid) : List Notification :=
  sortRows (notificationOrder options.sortOrder)
    (tables.notifications.rows.filter (selects options wallet))

/-- The user's own notifications stay selected past every cursor. -/
def staysSelected (options : ListNotificationsOptions) (place : Place) (row : Notification) :
    Bool :=
  decide (row.userId = options.userId) || past options.sortOrder place row

def placeCursor (place : Place) : NotificationCursor := entryCursor place.date place.id

/-- The notifications behind the entries of the pages. -/
def followNotifications (tables : NotificationTables) (options : ListNotificationsOptions)
    (_ : ℕ) (cursor : Option NotificationCursor) :
    Except ListError (Page Notification NotificationCursor) :=
  (notificationQuery { options with page := 1 } cursor).map fun query =>
    cutPage options.limit (fun last => placeCursor (placeOf last.timestamp last.id))
      (((ordered options query).take (options.limit + 1)).getMany notificationColumns
        tables.notifications.rows)

section Plain

variable {tables : NotificationTables} {options : ListNotificationsOptions} {wallet : Uuid}

theorem followList_plain : followList tables false options =
    presented Notification.entry (followNotifications tables options) := by
  funext call cursor
  simp only [followList, list, presented, followNotifications, listPlain]
  cases notificationQuery { options with page := 1 } cursor <;> rfl

theorem accepts_filterMatching (query : SelectQueryBuilder Notification) (row : Notification) :
    (filterMatching options query).accepts row =
      ((query.alternatives.any fun alternative => alternative row)
        || (query.lastAlternative row && options.matches row.read row.type)) := by
  unfold filterMatching ListNotificationsOptions.matches
  cases options.read <;> cases options.type <;>
    simp [SelectQueryBuilder.accepts, SelectQueryBuilder.andWhere, Bool.and_assoc]

theorem offset_filterMatching (options : ListNotificationsOptions)
    (query : SelectQueryBuilder Notification) :
    (filterMatching options query).offset = query.offset := by
  unfold filterMatching
  cases options.read <;> cases options.type <;> rfl

theorem selects_first (row : Notification) :
    (filterMatching options ((ofAccount options wallet).skip 0)).accepts row =
      selects options wallet row := by
  rw [accepts_filterMatching]
  simp [ofAccount, SelectQueryBuilder.whereEither, SelectQueryBuilder.whereOnly,
    SelectQueryBuilder.skip, selects]

theorem selects_past (place : Place) (row : Notification) :
    (filterMatching options
        ((ofAccount options wallet).andWhere (past options.sortOrder place))).accepts row =
      (selects options wallet row && staysSelected options place row) := by
  rw [accepts_filterMatching]
  simp only [ofAccount, SelectQueryBuilder.whereEither, SelectQueryBuilder.whereOnly,
    SelectQueryBuilder.andWhere, selects, staysSelected, List.any_cons, List.any_nil,
    Bool.or_false]
  cases decide (row.userId = options.userId) <;> cases decide (row.userId = wallet) <;>
    cases past options.sortOrder place row <;> simp

theorem separates_notificationOrder (sortOrder : SortOrder) (accepts : Notification → Bool) :
    Separates (notificationOrder sortOrder) (tables.notifications.rows.filter accepts) := by
  intro left hleft right hright hsame
  rw [notificationOrder, Columns.compareRows_pair, Ordering.then_eq_eq, along_eq rfl,
    along_eq rfl] at hsame
  exact tables.notifications.eq_of_key (List.mem_of_mem_filter hleft)
    (List.mem_of_mem_filter hright) hsame.2

theorem getMany_ordered {query : SelectQueryBuilder Notification} (hoffset : query.offset = 0)
    (rows : List Notification) :
    ((ordered options query).take (options.limit + 1)).getMany notificationColumns rows =
      (sortRows (notificationOrder options.sortOrder) (rows.filter query.accepts)).take
        (options.limit + 1) := by
  have hdiffer : "n.timestamp" ≠ "n.id" := by decide
  have hzero : (ordered options query).offset = 0 := hoffset
  rw [SelectQueryBuilder.getMany_take _ _ _ hzero, SelectQueryBuilder.selected, ordered,
    SelectQueryBuilder.orderBys_orderBy_addOrderBy hdiffer]
  rfl

theorem nodup_plainListed : (plainListed tables options wallet).Nodup :=
  nodup_sortRows (tables.notifications.distinct _)

def plainListing (tables : NotificationTables) (options : ListNotificationsOptions)
    (wallet : Uuid) (hpositive : 0 < options.limit) : Listing Notification Place :=
  .ofFilter (plainListed tables options wallet) nodup_plainListed options.limit hpositive false
    (fun row => placeOf row.timestamp row.id) (staysSelected options)

variable {hpositive : 0 < options.limit}

theorem servedBy_plainListing (tables : NotificationTables) (hpositive : 0 < options.limit)
    (hwallet : options.wallet = .uuid wallet) :
    (plainListing tables options wallet hpositive).ServedBy placeCursor
      (followNotifications tables options) := by
  intro call cursor _
  rw [Listing.encode_page rfl]
  have hquery : ({ options with page := 1 } : ListNotificationsOptions).wallet = .uuid wallet :=
    hwallet
  cases cursor with
  | none =>
      have hfirst : notificationQuery { options with page := 1 } none =
          .ok (filterMatching options ((ofAccount options wallet).skip 0)) := by
        simp only [notificationQuery, hquery, AccountText.uuid?, bind, Except.bind, Nat.sub_self,
          Nat.zero_mul]
        rfl
      have hoffset := offset_filterMatching options ((ofAccount options wallet).skip 0)
      rw [followNotifications, Option.map_none, hfirst]
      change Except.ok (cutPage _ _ _) = _
      rw [getMany_ordered hoffset, funext selects_first]
      rfl
  | some place =>
      have hpast : notificationQuery { options with page := 1 } (some (placeCursor place)) =
          .ok (filterMatching options
            ((ofAccount options wallet).andWhere (past options.sortOrder place))) := by
        simp only [notificationQuery, placeCursor, entryCursor, hquery, AccountText.uuid?, bind,
          Except.bind]
        rfl
      have hoffset := offset_filterMatching options
        ((ofAccount options wallet).andWhere (past options.sortOrder place))
      have hrows : tables.notifications.rows.filter (fun row => selects options wallet row
            && staysSelected options place row) =
          (tables.notifications.rows.filter (selects options wallet)).filter
            (staysSelected options place) := by
        rw [List.filter_filter]
        simp only [Bool.and_comm]
      rw [followNotifications, Option.map_some, hpast]
      change Except.ok (cutPage _ _ _) = _
      rw [getMany_ordered hoffset, funext (selects_past place), hrows,
        ← filter_sortRows (separates_notificationOrder _ _)]
      rfl

theorem notificationOrder_desc {left right : Notification} :
    notificationOrder .desc left right = .lt ↔ right.timestamp < left.timestamp ∨
      (left.timestamp = right.timestamp ∧ right.id < left.id) := by
  rw [notificationOrder, Columns.compareRows_pair, Ordering.then_eq_lt, SortOrder.direction,
    along_desc_lt rfl, along_eq rfl, along_desc_lt rfl]

theorem notificationOrder_asc {left right : Notification} :
    notificationOrder .asc left right = .lt ↔ left.timestamp < right.timestamp ∨
      (left.timestamp = right.timestamp ∧ left.id < right.id) := by
  rw [notificationOrder, Columns.compareRows_pair, Ordering.then_eq_lt, SortOrder.direction,
    along_asc_lt rfl, along_eq rfl, along_asc_lt rfl]

theorem past_desc {last row : Notification} :
    past .desc (placeOf last.timestamp last.id) row ↔
      row.timestamp < millisecondStart last.timestamp ∨
        (row.timestamp = millisecondStart last.timestamp ∧ row.id < last.id) :=
  precedes_placeOf

theorem past_asc {last row : Notification} :
    past .asc (placeOf last.timestamp last.id) row ↔
      millisecondStart last.timestamp < row.timestamp ∨
        (row.timestamp = millisecondStart last.timestamp ∧ last.id < row.id) :=
  decide_eq_true_iff

/-- In ascending order a row lies past the cursors of the rows before it. -/
theorem past_asc_of_lt {last row : Notification} (hlt : notificationOrder .asc last row = .lt) :
    past .asc (placeOf last.timestamp last.id) row := by
  rw [past_asc]
  have hstart := millisecondStart_le last.timestamp
  rcases notificationOrder_asc.mp hlt with hlt | ⟨heq, hid⟩
  · exact .inl (hstart.trans_lt hlt)
  · rcases hstart.lt_or_eq with hlater | hsame
    · exact .inl (hlater.trans_eq heq)
    · exact .inr ⟨heq.symm.trans hsame.symm, hid⟩

theorem staysSelected_iff {place : Place} {row : Notification} :
    staysSelected options place row ↔
      row.userId = options.userId ∨ past options.sortOrder place row := by
  rw [staysSelected, Bool.or_eq_true, decide_eq_true_iff]

/-- The user's own notifications are found for every cursor. -/
theorem recurs_of_own {row : Notification} (hrow : row ∈ plainListed tables options wallet)
    (hown : row.userId = options.userId) :
    (plainListing tables options wallet hpositive).Recurs row := by
  intro call cursor
  cases cursor with
  | none => exact hrow
  | some place => exact List.mem_filter.mpr ⟨hrow, staysSelected_iff.mpr (.inl hown)⟩

theorem lt_of_mem_plain_rest {before rest : List Notification} {last row : Notification}
    (hrows : plainListed tables options wallet = before ++ last :: rest) (hrow : row ∈ rest) :
    notificationOrder options.sortOrder last row = .lt :=
  lt_of_mem_rest (tables.notifications.distinct _) (separates_notificationOrder _ _) hrows hrow

theorem plainListing_closed : (plainListing tables options wallet hpositive).Closed := by
  intro call later before last rest hrows next hnext _ hrecurs hback row hrow
  obtain ⟨hnextMem, hnextStays⟩ := List.mem_filter.mp hnext
  obtain ⟨hmem, hstays⟩ := List.mem_filter.mp hrow
  apply List.mem_filter.mpr
  refine ⟨hmem, staysSelected_iff.mpr ?_⟩
  have hnextPast := (staysSelected_iff.mp hnextStays).resolve_left fun hown =>
    hrecurs (recurs_of_own hnextMem hown)
  rcases staysSelected_iff.mp hstays with hown | hpast
  · exact .inl hown
  · apply Or.inr
    have hafter := lt_of_mem_plain_rest hrows (hback row hrow)
    cases horder : options.sortOrder with
    | asc =>
        rw [horder] at hafter
        exact past_asc_of_lt hafter
    | desc =>
        rw [horder] at hnextPast hpast
        exact precedes_trans hnextPast hpast

/-- Where a page is cut, the rows up to there are not the user's own, and past the cursor lie
the rows that follow. -/
def PlainCuts (tables : NotificationTables) (options : ListNotificationsOptions)
    (wallet : Uuid) : Prop :=
  ∀ before last rest, plainListed tables options wallet = before ++ last :: rest →
    options.limit ∣ before.length + 1 → rest ≠ [] →
      (∀ row ∈ before ++ [last], row.userId ≠ options.userId) ∧
        match options.sortOrder with
        | .asc => last.timestamp = millisecondStart last.timestamp
        | .desc => ∀ later ∈ rest, later.userId = options.userId ∨
            later.timestamp < millisecondStart last.timestamp ∨
              (later.timestamp = millisecondStart last.timestamp ∧ later.id < last.id)

theorem not_past_self {sortOrder : SortOrder} {row : Notification}
    (hwhole : sortOrder = .asc → row.timestamp = millisecondStart row.timestamp) :
    ¬ past sortOrder (placeOf row.timestamp row.id) row := by
  cases sortOrder with
  | asc =>
      rw [past_asc]
      rintro (hlt | ⟨-, hid⟩)
      · exact hlt.ne' (hwhole rfl)
      · exact lt_irrefl _ hid
  | desc =>
      rw [past_desc]
      rintro (hlt | ⟨-, hid⟩)
      · exact hlt.not_ge (millisecondStart_le row.timestamp)
      · exact lt_irrefl _ hid

theorem not_past_of_before {sortOrder : SortOrder} {row last : Notification}
    (hwhole : sortOrder = .asc → last.timestamp = millisecondStart last.timestamp)
    (hbefore : notificationOrder sortOrder row last = .lt) :
    ¬ past sortOrder (placeOf last.timestamp last.id) row := by
  have hstart := millisecondStart_le last.timestamp
  cases sortOrder with
  | asc =>
      rw [past_asc, ← hwhole rfl]
      rintro (hlt | ⟨heq, hid⟩) <;> rcases notificationOrder_asc.mp hbefore with hgt | ⟨hsame, hle⟩
      · exact hlt.not_gt hgt
      · exact hlt.ne' hsame
      · exact hgt.ne heq
      · exact hid.not_gt hle
  | desc =>
      rw [past_desc]
      rintro (hlt | ⟨heq, hid⟩) <;> rcases notificationOrder_desc.mp hbefore with hgt | ⟨hsame, hle⟩
      · exact (hlt.trans_le hstart).not_gt hgt
      · exact (hlt.trans_le hstart).ne hsame
      · exact (heq.le.trans hstart).not_gt hgt
      · exact hid.not_gt hle

theorem plainListing_clean_iff : (plainListing tables options wallet hpositive).Clean ↔
    PlainCuts tables options wallet := by
  apply Listing.clean_ofFilter_iff.trans
  apply forall₄_congr
  intro before last rest hrows
  have hbefore (row : Notification) (hrow : row ∈ before) :
      notificationOrder options.sortOrder row last = .lt :=
    lt_of_mem_before (tables.notifications.distinct _) (separates_notificationOrder _ _) hrows hrow
  rw [Listing.cuts_ofFilter_iff]
  simp only [staysSelected_iff, Bool.false_eq_true, false_and, or_false, and_imp]
  apply imp_congr_right; intro _
  apply imp_congr_right; intro _
  constructor
  · rintro ⟨hrest, hearlier, hlast⟩
    constructor
    · intro row hrow hown
      rcases List.mem_append.mp hrow with hrow | hrow
      · exact hearlier row hrow (.inl hown)
      · exact hlast (.inl (List.mem_singleton.mp hrow ▸ hown))
    · cases horder : options.sortOrder with
      | asc =>
          rw [horder] at hlast
          apply le_antisymm _ (millisecondStart_le last.timestamp)
          exact not_lt.mp fun hlt => hlast (.inr (past_asc.mpr (.inl hlt)))
      | desc =>
          rw [horder] at hrest
          intro later hlater
          exact (hrest later hlater).imp_right past_desc.mp
  · rintro ⟨hothers, hcut⟩
    have hwhole : options.sortOrder = .asc →
        last.timestamp = millisecondStart last.timestamp := by
      intro horder
      rw [horder] at hcut
      exact hcut
    refine ⟨?_, ?_, ?_⟩
    · intro later hlater
      cases horder : options.sortOrder with
      | asc =>
          have hafter := lt_of_mem_plain_rest hrows hlater
          rw [horder] at hafter
          exact .inr (past_asc_of_lt hafter)
      | desc =>
          rw [horder] at hcut
          exact (hcut later hlater).imp_right past_desc.mpr
    · rintro row hrow (hown | hpast)
      · exact hothers row (List.mem_append_left _ hrow) hown
      · exact not_past_of_before hwhole (hbefore row hrow) hpast
    · rintro (hown | hpast)
      · exact hothers last (List.mem_append_right _ List.mem_cons_self) hown
      · exact not_past_self hwhole hpast

/-- The whole plain list is on the first page, or its pages are cut as they are continued. -/
def PlainComplete (tables : NotificationTables) (options : ListNotificationsOptions) : Prop :=
  ∃ wallet, options.wallet = .uuid wallet ∧
    (∀ row ∈ tables.notifications.rows, row.userId = options.userId →
      options.matches row.read row.type) ∧
    PlainCuts tables options wallet

/-- A list that is asked for a wallet address fails. -/
theorem not_walk_address {address : String} (hwallet : options.wallet = .address address)
    {pages : List (List Entry)} : ¬ Walk (followList tables false options) 0 none pages := by
  have hquery : ({ options with page := 1 } : ListNotificationsOptions).wallet =
      .address address := hwallet
  have hfails : followList tables false options 0 none = .error .queryFailed := by
    rw [followList_plain]
    simp only [presented, followNotifications, notificationQuery, hquery, AccountText.uuid?]
    rfl
  intro hwalk
  cases hwalk with
  | last hpage _ =>
      rw [hfails] at hpage
      cases hpage
  | more hpage _ _ =>
      rw [hfails] at hpage
      cases hpage

theorem returnsOnce_entries_iff (hwallet : options.wallet = .uuid wallet)
    (hlimit : 1 ≤ options.limit) :
    ReturnsOnce (followList tables false options) (matchingEntries tables false options) ↔
      ReturnsOnce (followNotifications tables options) (userNotifications tables options) := by
  have hentries : matchingEntries tables false options =
      (userNotifications tables options).map Notification.entry := List.append_nil _
  have hknown : userNotifications tables options ⊆ tables.notifications.rows :=
    fun row hrow => List.mem_of_mem_filter hrow
  rw [followList_plain, hentries]
  apply returnsOnce_presented_iff (tables.notifications.distinct _) hknown
  · intro left hleft right hright hsame
    exact tables.notifications.eq_of_key hleft hright (congrArg Entry.id hsame)
  · intro pages hwalk row hrow
    have hserved := servedBy_plainListing tables hlimit hwallet
    have hmem : row ∈ plainListed tables options wallet :=
      Listing.mem_rows_of_servedBy hserved hwalk row hrow
    exact List.mem_of_mem_filter (mem_sortRows.mp hmem)

/-- Where the user's own notifications match, the list selects what matches. -/
theorem userNotifications_eq (hwallet : options.wallet = .uuid wallet)
    (hown : ∀ row ∈ tables.notifications.rows, row.userId = options.userId →
      options.matches row.read row.type) :
    userNotifications tables options =
      tables.notifications.rows.filter (selects options wallet) := by
  apply List.filter_congr
  intro row hrow
  rw [selects, hwallet]
  by_cases howner : row.userId = options.userId
  · simp [howner, hown row hrow howner]
  · simp [howner]

theorem plain_returnsOnce_iff (hlimit : 1 ≤ options.limit) :
    ReturnsOnce (followList tables false options) (matchingEntries tables false options) ↔
      PlainComplete tables options := by
  cases hwallet : options.wallet with
  | address address =>
      constructor
      · rintro ⟨pages, hwalk, -⟩
        exact absurd hwalk (not_walk_address hwallet)
      · rintro ⟨wallet, hother, -⟩
        rw [hwallet] at hother
        cases hother
  | uuid wallet =>
      have hserved := servedBy_plainListing tables hlimit hwallet
      have hclean (hown : ∀ row ∈ tables.notifications.rows, row.userId = options.userId →
          options.matches row.read row.type) :
          ReturnsOnce (followNotifications tables options) (userNotifications tables options) ↔
            PlainCuts tables options wallet := by
        rw [userNotifications_eq hwallet hown]
        calc
          ReturnsOnce (followNotifications tables options) _ ↔
              ReturnsOnce (followNotifications tables options)
                (plainListed tables options wallet) :=
            returnsOnce_congr (sortRows_perm _ _).symm
          _ ↔ (plainListing tables options wallet hlimit).Clean :=
            Listing.returnsOnce_iff_of_servedBy hserved plainListing_closed
          _ ↔ PlainCuts tables options wallet := plainListing_clean_iff
      rw [returnsOnce_entries_iff hwallet hlimit]
      constructor
      · intro honce
        have hown : ∀ row ∈ tables.notifications.rows, row.userId = options.userId →
            options.matches row.read row.type := by
          intro row hrow howner
          obtain ⟨pages, hwalk, hpages⟩ := honce
          have hlisted : row ∈ plainListed tables options wallet := by
            apply mem_sortRows.mpr
            exact List.mem_filter.mpr ⟨hrow, by simp [selects, howner]⟩
          have hreturned := Listing.mem_of_recurs (recurs_of_own hlisted howner)
            ((Listing.walk_iff_of_servedBy hserved).mp hwalk)
          exact (Bool.and_eq_true_iff.mp (List.mem_filter.mp (hpages.mem_iff.mp hreturned)).2).2
        exact ⟨wallet, hwallet, hown, (hclean hown).mp honce⟩
      · rintro ⟨other, hother, hown, hcuts⟩
        rw [hwallet] at hother
        cases hother
        exact (hclean hown).mpr hcuts

end Plain

/-- In both modes the entries that match are returned once exactly when the aggregated list fits
on one page, and the plain list is cut where it is continued. -/
theorem list_returnsOnce_iff (tables : NotificationTables) (options : ListNotificationsOptions)
    (hlimit : 1 ≤ options.limit) :
    (ReturnsOnce (followList tables true options) (matchingEntries tables true options) ↔
      OnOnePage tables options) ∧
    (ReturnsOnce (followList tables false options) (matchingEntries tables false options) ↔
      PlainComplete tables options) :=
  ⟨aggregated_returnsOnce_iff hlimit, plain_returnsOnce_iff hlimit⟩

/-- Two notifications of one user, and no events. -/
def twoNotifications : NotificationTables where
  notifications :=
    { rows :=
        [⟨1, 7, "invoice", "Published", "Your invoice is listed", false, 1767225600000000,
            1767225600000000⟩,
          ⟨2, 7, "payment", "Settled", "Your invoice is paid", false, 1767225601000000,
            1767225601000000⟩]
      unique := by decide }
  kycEvents := ⟨[], by decide⟩
  investmentEvents := ⟨[], by decide⟩
  settlementEvents := ⟨[], by decide⟩

def onePerPage : ListNotificationsOptions := ⟨7, none, 1, 1, none, none, .desc⟩

/-- The aggregated list answers every cursor with its first page. -/
theorem twoNotifications_neverEnd : ¬ ReturnsOnce (followList twoNotifications true onePerPage)
    (matchingEntries twoNotifications true onePerPage) := by
  rintro ⟨pages, hwalk, -⟩
  exact not_walk_aggregated (by decide) (by decide +kernel) hwalk

/-- The unread notifications of a wallet text that is another user's id. -/
def unreadOfWallet : ListNotificationsOptions :=
  ⟨8, some (.uuid 7), 1, 2, some false, none, .desc⟩

theorem twoNotifications_complete : OnOnePage twoNotifications unreadOfWallet ∧
    PlainComplete twoNotifications unreadOfWallet := by
  have haggregated : follow (followList twoNotifications true unreadOfWallet) 1 0 none =
      some [[⟨2, .uuid 7, "payment", "Settled", "Your invoice is paid", false, 1767225601000,
          1767225601000⟩,
        ⟨1, .uuid 7, "invoice", "Published", "Your invoice is listed", false, 1767225600000,
          1767225600000⟩]] := by decide +kernel
  have hplain : follow (followList twoNotifications false unreadOfWallet) 1 0 none =
      some [[⟨2, .uuid 7, "payment", "Settled", "Your invoice is paid", false, 1767225601000,
          1767225601000⟩,
        ⟨1, .uuid 7, "invoice", "Published", "Your invoice is listed", false, 1767225600000,
          1767225600000⟩]] := by decide +kernel
  obtain ⟨hfirst, hsecond⟩ := list_returnsOnce_iff twoNotifications unreadOfWallet (by decide)
  constructor
  · exact hfirst.mp (returnsOnce_of_follow haggregated (by decide +kernel))
  · exact hsecond.mp (returnsOnce_of_follow hplain (by decide +kernel))

end StellarSettle.NotificationList
