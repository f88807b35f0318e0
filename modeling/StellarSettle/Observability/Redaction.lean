import Mathlib.Data.List.Flatten
import Mathlib.Data.List.Nodup
import Mathlib.Data.List.Pairwise
import StellarSettle.Core.TextPatterns

/-!
# The redaction of log entries

`normalizeLogMetadata` copies the metadata of a log call into a tree, and `redactionFormat`
rewrites the strings of the entry into which that tree is merged.
-/

namespace StellarSettle.Redaction

open StellarSettle.TextPatterns

/-! ## Values -/

inductive Primitive where
  | undefined
  | null
  | boolean (value : Bool)
  /-- Numbers, symbols and functions. -/
  | other (identity : ℕ)
  deriving DecidableEq, Repr

inductive Value where
  | primitive (value : Primitive)
  | text (value : String)
  | bigint (value : ℤ)
  | object (ref : ℕ)
  deriving DecidableEq, Repr

/-- The own enumerable properties of an object, each name once. -/
structure Properties where
  entries : List (String × Value)
  distinct : (entries.map Prod.fst).Nodup
  deriving DecidableEq, Repr

/-- An error has a name, a message and a stack that are not enumerable. -/
inductive HeapObject where
  | error (name message : String) (stack : Option String) (properties : Properties)
  | array (items : List Value)
  | plain (properties : Properties)
  deriving DecidableEq, Repr

abbrev Heap := ℕ → HeapObject

/-- A copy is known by the object it was made from.  An array that is copied as a whole has none,
since it may be copied once more where it contains itself. -/
abbrev Identity := Option ℕ

/-- A value that contains its objects. -/
inductive Tree where
  | primitive (value : Primitive)
  | text (value : String)
  | bigint (value : ℤ)
  | error (ref : Identity) (name message : String) (stack : Option String)
      (entries : List (String × Tree))
  | array (ref : Identity) (items : List Tree)
  | object (ref : Identity) (entries : List (String × Tree))

abbrev LogMetadata := List (String × Tree)

/-! ## Objects -/

/-- Writing to the name of the prototype makes no property. -/
def written (entries : LogMetadata) : LogMetadata :=
  entries.filter fun entry => entry.1 ≠ "__proto__"

/-- `{ ...first, ...second }`. -/
def spread (first second : LogMetadata) : LogMetadata :=
  first.map (fun entry => (entry.1, (second.lookup entry.1).getD entry.2)) ++
    second.filter fun entry => entry.1 ∉ first.map Prod.fst

def optionalText : Option String → Tree
  | none => .primitive .undefined
  | some value => .text value

/-- What `in` finds on a new error object: its three fields and the names of every object. -/
def errorFields : List String :=
  ["name", "message", "stack", "constructor", "toString", "toLocaleString", "valueOf",
    "hasOwnProperty", "isPrototypeOf", "propertyIsEnumerable", "__proto__", "__defineGetter__",
    "__defineSetter__", "__lookupGetter__", "__lookupSetter__"]

/-! ## Normalisation -/

/-- Copies of a list's elements, made one after another with the objects seen so far. -/
def copyEach {α β : Type} (copy : α → List ℕ → β × List ℕ) : List α → List ℕ → List β × List ℕ
  | [], seen => ([], seen)
  | item :: rest, seen =>
      let (copied, seen) := copy item seen
      let (others, seen) := copyEach copy rest seen
      (copied :: others, seen)

def copyEntry (copy : Value → List ℕ → Tree × List ℕ) (entry : String × Value)
    (seen : List ℕ) : (String × Tree) × List ℕ :=
  let (copied, seen) := copy entry.2 seen
  ((entry.1, copied), seen)

/-- The first number counts down while `depth` counts up: at a depth of nine it is zero. -/
def sanitizeValue (heap : Heap) : ℕ → Value → List ℕ → Tree × List ℕ
  | _, .primitive value, seen => (.primitive value, seen)
  | _, .text value, seen => (.text value, seen)
  | _, .bigint value, seen => (.text (toString value), seen)
  | 0, .object ref, seen =>
      if ref ∈ seen then (.text "[Circular]", seen) else (.text "[DepthLimit]", ref :: seen)
  | room + 1, .object ref, seen =>
      if ref ∈ seen then (.text "[Circular]", seen)
      else
        match heap ref with
        | .error name message stack properties =>
            let (copied, seen) := copyEach (copyEntry (sanitizeValue heap room))
              (properties.entries.filter fun entry => entry.1 ∉ errorFields) (ref :: seen)
            (.object (some ref) ([("name", .text name), ("message", .text message),
              ("stack", optionalText stack)] ++ copied), seen)
        | .array items =>
            let (copied, seen) := copyEach (sanitizeValue heap room) items (ref :: seen)
            (.array (some ref) copied, seen)
        | .plain properties =>
            let (copied, seen) :=
              copyEach (copyEntry (sanitizeValue heap room)) properties.entries (ref :: seen)
            (.object (some ref) (written copied), seen)

/-- The depths from zero to eight. -/
def levels : ℕ := 9

/-- The array of the top level is not itself among the objects seen. -/
def normalizeLogMetadata (heap : Heap) : Value → LogMetadata
  | .primitive .undefined | .primitive .null => []
  | .primitive value => [("value", .primitive value)]
  | .text value => [("value", .text value)]
  | .bigint value => [("value", .text (toString value))]
  | .object ref =>
      match heap ref with
      | .array items =>
          [("items", .array none (copyEach (sanitizeValue heap (levels - 1)) items []).1)]
      | _ =>
          match (sanitizeValue heap levels (.object ref) []).1 with
          | .object _ entries => entries
          | other => [("value", other)]

/-! ## Patterns -/

def isUpper (c : Char) : Bool := decide ('A' ≤ c ∧ c ≤ 'Z')

def isWord (c : Char) : Bool :=
  isUpper c || decide ('a' ≤ c ∧ c ≤ 'z') || c.isDigit || c == '_'

/-- `\s`. -/
def isSpace (c : Char) : Bool :=
  c.val ∈ ([0x9, 0xa, 0xb, 0xc, 0xd, 0x20, 0xa0, 0x1680, 0x2028, 0x2029, 0x202f, 0x205f, 0x3000,
    0xfeff] : List UInt32) || decide (0x2000 ≤ c.val ∧ c.val ≤ 0x200a)

def STELLAR_SECRET_KEY_PATTERN : List Piece :=
  literal "S" ++ [{ accepts := fun c => isUpper c || c.isDigit, least := 55, most := some 55 }]

def STELLAR_SECRET_KEY_REDACTED : Mask :=
  { shared := "S".toList, gap := [], marks := List.replicate 55 '*' }

def segment (least : ℕ) : Piece :=
  { accepts := fun c => isWord c || c == '-', least := least, most := none }

def JWT_PATTERN : List Piece :=
  literal "eyJ" ++ segment 10 :: (literal ".eyJ" ++ segment 10 :: (literal "." ++ [segment 1]))

def BEARER_PATTERN : List Piece :=
  literal "Bearer" ++
    [ { accepts := isSpace, least := 1, most := none },
      { accepts := fun c => isWord c || c ∈ ['-', '.', '~', '+', '/'], least := 1, most := none },
      { accepts := (· == '='), least := 0, most := none } ]

def jwtMask : Mask := { shared := "eyJ".toList, gap := [], marks := "***.eyJ***.***".toList }

def bearerMask : Mask := { shared := "Bearer".toList, gap := [' '], marks := "***".toList }

def redactStringValue (value : String) : String :=
  String.ofList (replaceAll JWT_PATTERN jwtMask.text
    (replaceAll BEARER_PATTERN bearerMask.text
      (replaceAll STELLAR_SECRET_KEY_PATTERN STELLAR_SECRET_KEY_REDACTED.text value.toList)))

/-! ## Sensitive keys -/

/-- Lowering gives a Latin letter for those and for the Kelvin sign. -/
def toLowerCase (c : Char) : Char := if c.val = 0x212a then 'k' else c.toLower

def normalizeKey (key : String) : List Char :=
  (key.toList.map toLowerCase).filter fun c => c ∉ ['-', '_']

def SENSITIVE_KEY_NAMES : List (List Char) :=
  ["password", "secret", "secretKey", "privateKey", "platformSecretKey", "jwt", "token",
    "accessToken", "refreshToken", "idToken", "authorization", "proxyAuthorization", "auth",
    "cookie", "setCookie", "credential", "credentials", "apiKey", "adminKey", "xAdminKey",
    "xApiKey", "seed", "seedPhrase", "mnemonic", "passphrase", "walletKey", "walletSecret",
    "walletSecretKey", "walletPrivateKey", "signingKey", "signature", "xSignature"].map normalizeKey

def isSensitiveKey (key : String) : Bool := normalizeKey key ∈ SENSITIVE_KEY_NAMES

/-! ## Redaction -/

/-- The value of a property, or an element of an array. -/
inductive Place where
  | field
  | element
  deriving DecidableEq, Repr

/-- The entries of an array. -/
def indexed (items : List Tree) : LogMetadata :=
  items.zipIdx.map fun item => (toString item.2, item.1)

mutual

/-- `redactObjectValues`, on an object that is among those seen.  No index is a sensitive key. -/
def redactEntries : LogMetadata → List Identity → LogMetadata × List Identity
  | [], seen => ([], seen)
  | (key, value) :: rest, seen =>
      if isSensitiveKey key then
        let (others, seen) := redactEntries rest seen
        ((key, .text "[REDACTED]") :: others, seen)
      else
        let (redacted, seen) := redactValue .field value seen
        let (others, seen) := redactEntries rest seen
        ((key, redacted) :: others, seen)

def redactValue : Place → Tree → List Identity → Tree × List Identity
  | _, .primitive value, seen => (.primitive value, seen)
  | _, .text value, seen => (.text (redactStringValue value), seen)
  | _, .bigint value, seen => (.text (toString value), seen)
  | .field, .error ref name message stack entries, seen =>
      (.object ref (spread [("name", .text name), ("message", .text (redactStringValue message)),
        ("stack", optionalText ((stack.filter (· ≠ "")).map redactStringValue))] entries), seen)
  | .element, .error ref _ _ _ entries, seen =>
      if ref ∈ seen then (.text "[Circular]", seen)
      else
        let (redacted, seen) := redactEntries entries (ref :: seen)
        (.object ref (written redacted), seen)
  | .field, .array ref items, seen =>
      if ref ∈ seen then (.text "[Circular]", seen)
      else
        let (redacted, seen) := redactItems .element items (ref :: seen)
        (.array ref redacted, seen)
  | .element, .array ref items, seen =>
      if ref ∈ seen then (.text "[Circular]", seen)
      else
        let (redacted, seen) := redactItems .field items (ref :: seen)
        (.object ref (indexed redacted), seen)
  | _, .object ref entries, seen =>
      if ref ∈ seen then (.text "[Circular]", seen)
      else
        let (redacted, seen) := redactEntries entries (ref :: seen)
        (.object ref (written redacted), seen)

/-- The elements of an array, or the values of its entries. -/
def redactItems : Place → List Tree → List Identity → List Tree × List Identity
  | _, [], seen => ([], seen)
  | place, item :: rest, seen =>
      let (redacted, seen) := redactValue place item seen
      let (others, seen) := redactItems place rest seen
      (redacted :: others, seen)

end

/-! ## Entries -/

inductive Level where
  | debug
  | info
  | warn
  | error
  deriving DecidableEq, Repr

def Level.text : Level → String
  | debug => "debug"
  | info => "info"
  | warn => "warn"
  | error => "error"

/-- The level is also kept under a symbol, which is what transports read. -/
structure LogEntry where
  levelSymbol : Level
  fields : LogMetadata

/-- The metadata merged into an entry.  The message may have a metadata message behind it. -/
def mergeEntry (level : Level) (message : String) (metadata : LogMetadata) : LogEntry :=
  { levelSymbol := level
    fields := spread (spread [("service", .text "stellarsettle-api")] metadata)
      [("level", .text level.text), ("message", .text message)] }

def redactMessage : String × Tree → String × Tree
  | (key, .text value) =>
      if key = "message" ∧ value ≠ "" then (key, .text (redactStringValue value))
      else (key, .text value)
  | entry => entry

def exempt : List String := ["level", "message", "timestamp", "stack"]

def redactionFormat (entry : LogEntry) : LogEntry :=
  let fields := entry.fields.map redactMessage
  let rest := fields.filter fun field => field.1 ∉ exempt
  { entry with fields := spread fields (written (redactEntries rest []).1) }

/-! ## Safe entries -/

def patterns : List (List Piece) := [STELLAR_SECRET_KEY_PATTERN, BEARER_PATTERN, JWT_PATTERN]

/-- No pattern matches anywhere in the text. -/
def ClearText (value : String) : Prop := ∀ pattern ∈ patterns, Clean pattern value.toList

instance (value : String) : Decidable (ClearText value) := by
  unfold ClearText
  infer_instance

/-- The strings at all depths are clear, and the values of sensitive keys are replaced.  The keys
may be counted among the strings or not. -/
inductive Safe (keysCount : Bool) : Tree → Prop where
  | primitive {value : Primitive} : Safe keysCount (.primitive value)
  | text {value : String} (hclear : ClearText value) : Safe keysCount (.text value)
  | bigint {value : ℤ} : Safe keysCount (.bigint value)
  | array {ref : Identity} {items : List Tree} (hitems : ∀ item ∈ items, Safe keysCount item) :
      Safe keysCount (.array ref items)
  | object {ref : Identity} {entries : LogMetadata}
      (hkeys : ∀ entry ∈ entries, keysCount = true → ClearText entry.1)
      (hsensitive : ∀ entry ∈ entries,
        isSensitiveKey entry.1 = true → entry.2 = .text "[REDACTED]")
      (hvalues : ∀ entry ∈ entries, Safe keysCount entry.2) : Safe keysCount (.object ref entries)

def FieldsSafe (keysCount : Bool) (entries : LogMetadata) : Prop :=
  ∀ entry ∈ entries, (keysCount = true → ClearText entry.1) ∧
    (isSensitiveKey entry.1 = true → entry.2 = .text "[REDACTED]") ∧ Safe keysCount entry.2

/-- A value without errors and bigints, in which no key that the redaction shows matches a pattern
if keys count. -/
inductive Shown (keysCount : Bool) : Tree → Prop where
  | primitive {value : Primitive} : Shown keysCount (.primitive value)
  | text {value : String} : Shown keysCount (.text value)
  | array {ref : Identity} {items : List Tree} (hitems : ∀ item ∈ items, Shown keysCount item) :
      Shown keysCount (.array ref items)
  | object {ref : Identity} {entries : LogMetadata}
      (hkeys : ∀ entry ∈ entries, entry.1 ≠ "__proto__" ∧ (keysCount = true → ClearText entry.1))
      (hvalues : ∀ entry ∈ entries, isSensitiveKey entry.1 = false → Shown keysCount entry.2) :
      Shown keysCount (.object ref entries)

def FieldsShown (keysCount : Bool) (entries : LogMetadata) : Prop :=
  ∀ entry ∈ entries, (entry.1 ≠ "__proto__" ∧ (keysCount = true → ClearText entry.1)) ∧
    (isSensitiveKey entry.1 = false → Shown keysCount entry.2)

variable {keysCount : Bool} {ref : Identity} {entries : LogMetadata} {items : List Tree}

theorem safe_object : Safe keysCount (.object ref entries) ↔ FieldsSafe keysCount entries := by
  constructor
  · intro hsafe
    cases hsafe with
    | object hkeys hsensitive hvalues =>
        exact fun entry hentry =>
          ⟨hkeys entry hentry, hsensitive entry hentry, hvalues entry hentry⟩
  · intro hsafe
    exact .object (fun entry hentry => (hsafe entry hentry).1)
      (fun entry hentry => (hsafe entry hentry).2.1) fun entry hentry => (hsafe entry hentry).2.2

theorem safe_array :
    Safe keysCount (.array ref items) ↔ ∀ item ∈ items, Safe keysCount item :=
  ⟨fun hsafe => by cases hsafe; assumption, .array⟩

theorem safe_text {value : String} : Safe keysCount (.text value) ↔ ClearText value :=
  ⟨fun hsafe => by cases hsafe; assumption, .text⟩

theorem shown_object : Shown keysCount (.object ref entries) ↔ FieldsShown keysCount entries := by
  constructor
  · intro hshown
    cases hshown with
    | object hkeys hvalues => exact fun entry hentry => ⟨hkeys entry hentry, hvalues entry hentry⟩
  · intro hshown
    exact .object (fun entry hentry => (hshown entry hentry).1)
      fun entry hentry => (hshown entry hentry).2

theorem shown_array :
    Shown keysCount (.array ref items) ↔ ∀ item ∈ items, Shown keysCount item :=
  ⟨fun hshown => by cases hshown; assumption, .array⟩

/-! ## Redacted strings -/

theorem stellarMask_hides : STELLAR_SECRET_KEY_REDACTED.Hides STELLAR_SECRET_KEY_PATTERN := by
  decide +kernel

theorem bearerMask_hides :
    ∀ pattern ∈ [STELLAR_SECRET_KEY_PATTERN, BEARER_PATTERN], bearerMask.Hides pattern := by
  decide +kernel

theorem jwtMask_hides : ∀ pattern ∈ patterns, jwtMask.Hides pattern := by
  decide +kernel

theorem clearText_redactStringValue (value : String) : ClearText (redactStringValue value) := by
  have hstellar : Clean STELLAR_SECRET_KEY_PATTERN (replaceAll STELLAR_SECRET_KEY_PATTERN
      STELLAR_SECRET_KEY_REDACTED.text value.toList) :=
    clean_replaceAll (fun text => prefix_of_startsWith_literal) stellarMask_hides fun _ _ => id
  have hbearer : ∀ pattern ∈ [STELLAR_SECRET_KEY_PATTERN, BEARER_PATTERN], Clean pattern
      (replaceAll BEARER_PATTERN bearerMask.text (replaceAll STELLAR_SECRET_KEY_PATTERN
        STELLAR_SECRET_KEY_REDACTED.text value.toList)) := by
    intro pattern hpattern
    refine clean_replaceAll (fun text => prefix_of_startsWith_literal)
      (bearerMask_hides pattern hpattern) fun suffix hsuffix hstarts => ?_
    rcases List.mem_pair.1 hpattern with rfl | rfl
    · exact absurd hstarts (hstellar suffix hsuffix)
    · exact hstarts
  intro pattern hpattern
  rw [redactStringValue, String.toList_ofList]
  refine clean_replaceAll (fun text => prefix_of_startsWith_literal)
    (jwtMask_hides pattern hpattern) fun suffix hsuffix hstarts => ?_
  rcases List.mem_cons.1 hpattern with rfl | hrest
  · exact absurd hstarts (hbearer _ (by simp) suffix hsuffix)
  · rcases List.mem_pair.1 hrest with rfl | rfl
    · exact absurd hstarts (hbearer _ (by simp) suffix hsuffix)
    · exact hstarts

example : redactStringValue "Bearer  a.b-c== sent" = "Bearer *** sent" := by decide +kernel

/-! ## Redacted trees -/

theorem fieldsSafe_nil : FieldsSafe keysCount [] := by
  intro entry hentry
  cases hentry

theorem fieldsSafe_cons {entry : String × Tree} :
    FieldsSafe keysCount (entry :: entries) ↔
      ((keysCount = true → ClearText entry.1) ∧
        (isSensitiveKey entry.1 = true → entry.2 = .text "[REDACTED]") ∧
          Safe keysCount entry.2) ∧ FieldsSafe keysCount entries :=
  List.forall_mem_cons

theorem fieldsShown_cons {entry : String × Tree} :
    FieldsShown keysCount (entry :: entries) ↔
      ((entry.1 ≠ "__proto__" ∧ (keysCount = true → ClearText entry.1)) ∧
        (isSensitiveKey entry.1 = false → Shown keysCount entry.2)) ∧
          FieldsShown keysCount entries :=
  List.forall_mem_cons

theorem FieldsSafe.written (hsafe : FieldsSafe keysCount entries) :
    FieldsSafe keysCount (written entries) :=
  fun entry hentry => hsafe entry (List.mem_of_mem_filter hentry)

theorem safe_circular : Safe keysCount (.text "[Circular]") := .text (by decide +kernel)

theorem safe_redacted : Safe keysCount (.text "[REDACTED]") := .text (by decide +kernel)

theorem clearText_index (index : ℕ) : ClearText (toString index) := by
  intro pattern hpattern
  simp only [patterns, List.mem_cons, List.not_mem_nil, or_false] at hpattern
  rcases hpattern with rfl | rfl | rfl
  · exact clean_of_not_mem (not_mem_toString (by decide) index)
  · exact clean_of_not_mem (not_mem_toString (by decide) index)
  · exact clean_of_not_mem (not_mem_toString (by decide) index)

theorem no_digit_of_sensitive :
    (SENSITIVE_KEY_NAMES.any fun name => name.any Char.isDigit) = false := by
  decide +kernel

theorem toLowerCase_digit {c : Char} (hc : c.isDigit = true) : toLowerCase c = c := by
  have hnine : c.toNat ≤ 57 := (Char.isDigit_iff_toNat.1 hc).2
  have hkelvin : c.val ≠ 0x212a := by
    intro hval
    have hcode : c.toNat = 0x212a := congrArg UInt32.toNat hval
    omega
  have hupper : ¬('A'.val ≤ c.val ∧ c.val ≤ 'Z'.val) := by
    rintro ⟨hval, -⟩
    have hcode : 65 ≤ c.toNat := UInt32.le_iff_toNat_le.1 hval
    omega
  rw [toLowerCase, if_neg hkelvin]
  exact dif_neg hupper

theorem index_not_sensitive (index : ℕ) : isSensitiveKey (toString index) = false := by
  obtain ⟨c, hc⟩ := List.exists_mem_of_ne_nil _ (Nat.toDigits_ne_nil (n := index) (b := 10))
  have hdigit : c.isDigit = true := Nat.isDigit_of_mem_toDigits (by decide) (by decide) hc
  have hnormal : c ∈ normalizeKey (toString index) := by
    refine List.mem_filter.2 ⟨List.mem_map.2 ⟨c, ?_, toLowerCase_digit hdigit⟩, ?_⟩
    · rwa [Nat.toString_eq_repr, Nat.toList_repr]
    · rw [decide_eq_true_iff, List.mem_pair]
      rintro (rfl | rfl) <;> cases hdigit
  rw [isSensitiveKey, decide_eq_false_iff_not]
  intro hmem
  have hnone := List.any_eq_false.mp no_digit_of_sensitive _ hmem
  exact hnone (List.any_eq_true.mpr ⟨c, hnormal, hdigit⟩)

theorem fieldsSafe_indexed :
    FieldsSafe keysCount (indexed items) ↔ ∀ item ∈ items, Safe keysCount item := by
  constructor
  · intro hsafe item hitem
    obtain ⟨index, hindex, rfl⟩ := List.getElem_of_mem hitem
    exact (hsafe _ (List.mem_map_of_mem (List.mk_mem_zipIdx_iff_getElem?.2
      (List.getElem?_eq_getElem hindex)))).2.2
  · intro hsafe entry hentry
    obtain ⟨⟨item, index⟩, hitem, rfl⟩ := List.mem_map.1 hentry
    exact ⟨fun _ => clearText_index index,
      fun hsensitive => absurd hsensitive (Bool.eq_false_iff.1 (index_not_sensitive index)),
      hsafe item (List.fst_mem_of_mem_zipIdx hitem)⟩

mutual

theorem fieldsSafe_redactEntries : ∀ (entries : LogMetadata) (seen : List Identity),
    FieldsShown keysCount entries → FieldsSafe keysCount (redactEntries entries seen).1
  | [], _, _ => by
      rw [redactEntries]
      exact fieldsSafe_nil
  | (key, value) :: rest, seen, hshown => by
      obtain ⟨⟨⟨-, hkey⟩, hvalue⟩, hrest⟩ := fieldsShown_cons.1 hshown
      rw [redactEntries]
      cases hsensitive : isSensitiveKey key with
      | true =>
          exact fieldsSafe_cons.2 ⟨⟨hkey, fun _ => rfl, safe_redacted⟩,
            fieldsSafe_redactEntries rest seen hrest⟩
      | false =>
          exact fieldsSafe_cons.2 ⟨⟨hkey, fun h => absurd h (by simp [hsensitive]),
            safe_redactValue .field value seen (hvalue hsensitive)⟩,
            fieldsSafe_redactEntries rest _ hrest⟩

theorem safe_redactValue : ∀ (place : Place) (tree : Tree) (seen : List Identity),
    Shown keysCount tree → Safe keysCount (redactValue place tree seen).1
  | _, .primitive value, _, _ => by
      rw [redactValue]
      exact .primitive
  | _, .text value, _, _ => by
      rw [redactValue]
      exact .text (clearText_redactStringValue value)
  | .field, .array ref items, seen, hshown => by
      rw [redactValue]
      split
      · exact safe_circular
      · exact safe_array.2 (safe_redactItems .element items _ (shown_array.1 hshown))
  | .element, .array ref items, seen, hshown => by
      rw [redactValue]
      split
      · exact safe_circular
      · exact safe_object.2
          (fieldsSafe_indexed.2 (safe_redactItems .field items _ (shown_array.1 hshown)))
  | _, .object ref entries, seen, hshown => by
      rw [redactValue]
      split
      · exact safe_circular
      · exact safe_object.2
          (fieldsSafe_redactEntries entries _ (shown_object.1 hshown)).written

theorem safe_redactItems : ∀ (place : Place) (items : List Tree) (seen : List Identity),
    (∀ item ∈ items, Shown keysCount item) →
      ∀ item ∈ (redactItems place items seen).1, Safe keysCount item
  | _, [], _, _ => by
      rw [redactItems]
      simp
  | place, item :: rest, seen, hshown => by
      obtain ⟨hitem, hrest⟩ := List.forall_mem_cons.1 hshown
      rw [redactItems]
      exact List.forall_mem_cons.2
        ⟨safe_redactValue place item seen hitem, safe_redactItems place rest _ hrest⟩

end

/-! ## Objects that are met once -/

mutual

def Tree.refs : Tree → List Identity
  | .primitive _ | .text _ | .bigint _ => []
  | .error ref _ _ _ entries => ref :: entryRefs entries
  | .array ref items => ref :: itemRefs items
  | .object ref entries => ref :: entryRefs entries

def entryRefs : LogMetadata → List Identity
  | [] => []
  | (_, value) :: rest => value.refs ++ entryRefs rest

def itemRefs : List Tree → List Identity
  | [] => []
  | item :: rest => item.refs ++ itemRefs rest

end

theorem entryRefs_eq (entries : LogMetadata) :
    entryRefs entries = entries.flatMap fun entry => entry.2.refs := by
  induction entries with
  | nil => rfl
  | cons entry rest ih => rw [entryRefs, ih, List.flatMap_cons]

theorem itemRefs_eq (items : List Tree) : itemRefs items = items.flatMap Tree.refs := by
  induction items with
  | nil => rfl
  | cons item rest ih => rw [itemRefs, ih, List.flatMap_cons]

/-- A walk that goes on from the objects seen passes these, all of them new. -/
structure Passes (seen refs after : List Identity) : Prop where
  nodup : refs.Nodup
  fresh : ∀ ref ∈ refs, ref ∉ seen
  kept : ∀ ref ∈ refs, ref ∈ after
  grows : ∀ ref ∈ seen, ref ∈ after

variable {seen refs after : List Identity}

theorem Passes.nil : Passes seen [] seen :=
  { nodup := List.nodup_nil
    fresh := by simp
    kept := by simp
    grows := fun _ => id }

theorem Passes.append {mid others : List Identity} (hfirst : Passes seen refs mid)
    (hsecond : Passes mid others after) : Passes seen (refs ++ others) after where
  nodup := by
    refine List.nodup_append.2 ⟨hfirst.nodup, hsecond.nodup, ?_⟩
    rintro ref href other hother rfl
    exact hsecond.fresh ref hother (hfirst.kept ref href)
  fresh := by
    intro ref href hseen
    rcases List.mem_append.1 href with hrefs | hothers
    · exact hfirst.fresh ref hrefs hseen
    · exact hsecond.fresh ref hothers (hfirst.grows ref hseen)
  kept := by
    intro ref href
    rcases List.mem_append.1 href with hrefs | hothers
    · exact hsecond.grows ref (hfirst.kept ref hrefs)
    · exact hsecond.kept ref hothers
  grows := fun ref href => hsecond.grows ref (hfirst.grows ref href)

/-- The object in which a walk is made is passed first. -/
theorem Passes.cons (hnew : ref ∉ seen) (hpasses : Passes (ref :: seen) refs after) :
    Passes seen (ref :: refs) after where
  nodup := List.nodup_cons.2
    ⟨fun href => hpasses.fresh ref href List.mem_cons_self, hpasses.nodup⟩
  fresh := List.forall_mem_cons.2
    ⟨hnew, fun other hother hseen => hpasses.fresh other hother (List.mem_cons_of_mem _ hseen)⟩
  kept := List.forall_mem_cons.2 ⟨hpasses.grows ref List.mem_cons_self, hpasses.kept⟩
  grows := fun other hother => hpasses.grows other (List.mem_cons_of_mem _ hother)

theorem Passes.sublist {fewer : List Identity} (hpasses : Passes seen refs after)
    (hfewer : fewer.Sublist refs) : Passes seen fewer after where
  nodup := hpasses.nodup.sublist hfewer
  fresh := fun other hother => hpasses.fresh other (hfewer.subset hother)
  kept := fun other hother => hpasses.kept other (hfewer.subset hother)
  grows := hpasses.grows

section CopyEach

variable {α β : Type} {copy : α → List ℕ → β × List ℕ}

theorem passes_copyEach {refsOf : β → List Identity}
    (hcopy : ∀ item seen,
      Passes (seen.map some) (refsOf (copy item seen).1) ((copy item seen).2.map some))
    (items : List α) (seen : List ℕ) :
    Passes (seen.map some) ((copyEach copy items seen).1.flatMap refsOf)
      ((copyEach copy items seen).2.map some) := by
  induction items generalizing seen with
  | nil => exact .nil
  | cons item rest ih =>
      rw [copyEach, List.flatMap_cons]
      exact (hcopy item seen).append (ih _)

theorem forall_mem_copyEach {holds : β → Prop} {items : List α}
    (hcopy : ∀ item ∈ items, ∀ seen, holds (copy item seen).1) (seen : List ℕ) :
    ∀ copied ∈ (copyEach copy items seen).1, holds copied := by
  induction items generalizing seen with
  | nil => simp [copyEach]
  | cons item rest ih =>
      obtain ⟨hitem, hrest⟩ := List.forall_mem_cons.1 hcopy
      exact List.forall_mem_cons.2 ⟨hitem seen, ih hrest _⟩

end CopyEach

theorem keys_copyEach (copy : Value → List ℕ → Tree × List ℕ) (entries : List (String × Value))
    (seen : List ℕ) :
    (copyEach (copyEntry copy) entries seen).1.map Prod.fst = entries.map Prod.fst := by
  induction entries generalizing seen with
  | nil => rfl
  | cons entry rest ih =>
      rw [copyEach, List.map_cons, List.map_cons, ih]
      rfl

theorem exists_of_mem_copyEach {copy : Value → List ℕ → Tree × List ℕ}
    {originals : List (String × Value)} {entry : String × Tree} {seen : List ℕ}
    (hentry : entry ∈ (copyEach (copyEntry copy) originals seen).1) :
    ∃ original ∈ originals, original.1 = entry.1 := by
  have hkey := List.mem_map_of_mem (f := Prod.fst) hentry
  rw [keys_copyEach] at hkey
  exact List.mem_map.1 hkey

theorem optionalText_shown (value : Option String) : Shown keysCount (optionalText value) := by
  cases value with
  | none => exact .primitive
  | some value => exact .text

theorem optionalText_refs (value : Option String) : (optionalText value).refs = [] := by
  cases value <;> rfl

/-- The fields of a copied error. -/
theorem fieldsShown_error {name message : String} {stack : Option String}
    (hcopied : ∀ entry ∈ entries, entry.1 ≠ "__proto__" ∧ Shown false entry.2) :
    FieldsShown false ([("name", .text name), ("message", .text message),
      ("stack", optionalText stack)] ++ entries) := by
  have hnot (key : String) : false = true → ClearText key := fun h => nomatch h
  refine List.forall_mem_append.2 ⟨?_, fun entry hentry =>
    ⟨⟨(hcopied entry hentry).1, hnot _⟩, fun _ => (hcopied entry hentry).2⟩⟩
  simp [optionalText_shown, Shown.text]

/-- A copy has no errors and no bigints. -/
theorem shown_sanitizeValue (heap : Heap) (room : ℕ) (value : Value) (seen : List ℕ) :
    Shown false (sanitizeValue heap room value seen).1 := by
  induction room generalizing value seen with
  | zero =>
      cases value with
      | object ref =>
          rw [sanitizeValue]
          split <;> exact .text
      | primitive value => exact .primitive
      | text value => exact .text
      | bigint value => exact .text
  | succ room ih =>
      cases value with
      | primitive value => exact .primitive
      | text value => exact .text
      | bigint value => exact .text
      | object ref =>
          have hcopies : ∀ (entries : List (String × Value)) (seen : List ℕ),
              ∀ entry ∈ (copyEach (copyEntry (sanitizeValue heap room)) entries seen).1,
                Shown false entry.2 :=
            fun entries seen => forall_mem_copyEach (fun entry _ seen => ih entry.2 seen) seen
          rw [sanitizeValue]
          split
          · exact .text
          · split
            · refine shown_object.2 (fieldsShown_error fun entry hentry =>
                ⟨?_, hcopies _ _ _ hentry⟩)
              obtain ⟨original, horiginal, hkey⟩ := exists_of_mem_copyEach hentry
              rintro hproto
              rw [hproto] at hkey
              simpa [hkey, errorFields] using (List.mem_filter.1 horiginal).2
            · exact .array (forall_mem_copyEach (fun item _ seen => ih item seen) _)
            · refine .object (fun entry hentry => ?_) fun entry hentry _ => ?_
              · exact ⟨by simpa using (List.mem_filter.1 hentry).2, fun h => nomatch h⟩
              · exact hcopies _ _ entry (List.mem_of_mem_filter hentry)

theorem not_mem_map_some {ref : ℕ} {seen : List ℕ} : some ref ∉ seen.map some ↔ ref ∉ seen := by
  simp

theorem passes_sanitizeValue (heap : Heap) (room : ℕ) (value : Value) (seen : List ℕ) :
    Passes (seen.map some) (sanitizeValue heap room value seen).1.refs
      ((sanitizeValue heap room value seen).2.map some) := by
  induction room generalizing value seen with
  | zero =>
      cases value with
      | object ref =>
          rw [sanitizeValue]
          split
          · exact .nil
          · rename_i hnew
            exact (Passes.nil.cons (not_mem_map_some.2 hnew)).sublist (List.nil_sublist _)
      | primitive value => exact .nil
      | text value => exact .nil
      | bigint value => exact .nil
  | succ room ih =>
      cases value with
      | primitive value => exact .nil
      | text value => exact .nil
      | bigint value => exact .nil
      | object ref =>
          have hcopies : ∀ entries : List (String × Value),
              Passes (some ref :: seen.map some)
                (entryRefs (copyEach (copyEntry (sanitizeValue heap room)) entries
                  (ref :: seen)).1)
                ((copyEach (copyEntry (sanitizeValue heap room)) entries
                  (ref :: seen)).2.map some) := by
            intro entries
            rw [entryRefs_eq]
            exact passes_copyEach (fun entry seen => ih entry.2 seen) entries (ref :: seen)
          rw [sanitizeValue]
          split
          · exact .nil
          · rename_i hseen
            have hnew := not_mem_map_some.2 hseen
            split
            · refine .cons hnew ?_
              rw [entryRefs_eq, List.flatMap_append, ← entryRefs_eq, ← entryRefs_eq]
              simpa [entryRefs, Tree.refs, optionalText_refs] using hcopies _
            · refine .cons hnew ?_
              rw [itemRefs_eq]
              exact passes_copyEach ih _ (ref :: seen)
            · refine .cons hnew ((hcopies _).sublist ?_)
              rw [entryRefs_eq, entryRefs_eq]
              exact List.Sublist.flatMap List.filter_sublist _

/-! ## Keys that are shown -/

theorem passed_or_seen {found : Identity} (href : ref ∈ refs ∨ ref ∈ found :: seen) :
    ref ∈ found :: refs ∨ ref ∈ seen := by
  rw [List.mem_cons, or_left_comm, ← or_assoc] at href
  rwa [List.mem_cons]

mutual

theorem seen_redactEntries : ∀ (entries : LogMetadata) (seen : List Identity),
    ∀ ref ∈ (redactEntries entries seen).2, ref ∈ entryRefs entries ∨ ref ∈ seen
  | [], _, _, href => .inr href
  | (key, value) :: rest, seen, ref, href => by
      rw [entryRefs, List.mem_append, or_assoc]
      rw [redactEntries] at href
      split at href
      · exact .inr (seen_redactEntries rest seen ref href)
      · rcases seen_redactEntries rest _ ref href with hrest | hvalue
        · exact .inr (.inl hrest)
        · exact (seen_redactValue .field value seen ref hvalue).imp_right .inr

theorem seen_redactValue : ∀ (place : Place) (tree : Tree) (seen : List Identity),
    ∀ ref ∈ (redactValue place tree seen).2, ref ∈ tree.refs ∨ ref ∈ seen
  | _, .primitive _, _, _, href => .inr (by rwa [redactValue] at href)
  | _, .text _, _, _, href => .inr (by rwa [redactValue] at href)
  | _, .bigint _, _, _, href => .inr (by rwa [redactValue] at href)
  | .field, .error .., _, _, href => .inr (by rwa [redactValue] at href)
  | .element, .error found _ _ _ entries, seen, ref, href => by
      rw [redactValue] at href
      split at href
      · exact .inr href
      · exact passed_or_seen (seen_redactEntries entries _ ref href)
  | .field, .array found items, seen, ref, href => by
      rw [redactValue] at href
      split at href
      · exact .inr href
      · exact passed_or_seen (seen_redactItems .element items _ ref href)
  | .element, .array found items, seen, ref, href => by
      rw [redactValue] at href
      split at href
      · exact .inr href
      · exact passed_or_seen (seen_redactItems .field items _ ref href)
  | _, .object found entries, seen, ref, href => by
      rw [redactValue] at href
      split at href
      · exact .inr href
      · exact passed_or_seen (seen_redactEntries entries _ ref href)

theorem seen_redactItems : ∀ (place : Place) (items : List Tree) (seen : List Identity),
    ∀ ref ∈ (redactItems place items seen).2, ref ∈ itemRefs items ∨ ref ∈ seen
  | _, [], _, _, href => .inr (by rwa [redactItems] at href)
  | place, item :: rest, seen, ref, href => by
      rw [itemRefs, List.mem_append, or_assoc]
      rw [redactItems] at href
      rcases seen_redactItems place rest _ ref href with hrest | hvalue
      · exact .inr (.inl hrest)
      · exact (seen_redactValue place item seen ref hvalue).imp_right .inr

end

/-- The objects of a value are met for the first time, each once. -/
def Unseen (seen refs : List Identity) : Prop := refs.Nodup ∧ ∀ ref ∈ refs, ref ∉ seen

theorem Unseen.of_cons {found : Identity} (hunseen : Unseen seen (found :: refs)) :
    found ∉ seen ∧ Unseen (found :: seen) refs := by
  obtain ⟨hnodup, hfresh⟩ := hunseen
  obtain ⟨hfound, hrefs⟩ := List.nodup_cons.1 hnodup
  obtain ⟨hnew, hfresh⟩ := List.forall_mem_cons.1 hfresh
  refine ⟨hnew, hrefs, fun ref href hseen => ?_⟩
  rcases List.mem_cons.1 hseen with rfl | hseen
  · exact hfound href
  · exact hfresh ref href hseen

theorem Unseen.left {others : List Identity} (hunseen : Unseen seen (refs ++ others)) :
    Unseen seen refs :=
  ⟨(List.nodup_append.1 hunseen.1).1, fun ref href => hunseen.2 ref (List.mem_append_left _ href)⟩

theorem Unseen.right {others : List Identity} (hunseen : Unseen seen (refs ++ others))
    (hafter : ∀ ref ∈ after, ref ∈ refs ∨ ref ∈ seen) : Unseen after others := by
  obtain ⟨-, hothers, hdisjoint⟩ := List.nodup_append.1 hunseen.1
  refine ⟨hothers, fun ref href hmem => ?_⟩
  rcases hafter ref hmem with hrefs | hseen
  · exact hdisjoint ref hrefs ref href rfl
  · exact hunseen.2 ref (List.mem_append_right _ href) hseen

theorem keys_redactEntries (entries : LogMetadata) (seen : List Identity) :
    (redactEntries entries seen).1.map Prod.fst = entries.map Prod.fst := by
  induction entries generalizing seen with
  | nil => rfl
  | cons entry rest ih =>
      rw [redactEntries]
      split <;> rw [List.map_cons, List.map_cons, ih]

theorem written_redactEntries (hplain : FieldsShown false entries) (seen : List Identity) :
    written (redactEntries entries seen).1 = (redactEntries entries seen).1 := by
  refine List.filter_eq_self.2 fun entry hentry => ?_
  have hkey := List.mem_map_of_mem (f := Prod.fst) hentry
  rw [keys_redactEntries] at hkey
  obtain ⟨original, horiginal, hkey⟩ := List.mem_map.1 hkey
  rw [← hkey, decide_eq_true_iff]
  exact (hplain original horiginal).1.1

mutual

/-- The redaction shows every key that is not under a sensitive one. -/
theorem fieldsShown_of_redactEntries : ∀ (entries : LogMetadata) (seen : List Identity),
    FieldsShown false entries → Unseen seen (entryRefs entries) →
      FieldsSafe keysCount (redactEntries entries seen).1 → FieldsShown keysCount entries
  | [], _, _, _, _ => by
      intro entry hentry
      cases hentry
  | (key, value) :: rest, seen, hplain, hunseen, hsafe => by
      obtain ⟨⟨⟨hproto, -⟩, hvalue⟩, hrest⟩ := fieldsShown_cons.1 hplain
      rw [entryRefs] at hunseen
      rw [redactEntries] at hsafe
      cases hsensitive : isSensitiveKey key with
      | true =>
          rw [hsensitive] at hsafe
          obtain ⟨⟨hkey, -, -⟩, hsafe⟩ := fieldsSafe_cons.1 hsafe
          refine fieldsShown_cons.2 ⟨⟨⟨hproto, hkey⟩, fun h => ?_⟩, ?_⟩
          · rw [hsensitive] at h
            cases h
          · exact fieldsShown_of_redactEntries rest seen hrest
              (hunseen.right fun ref href => .inr href) hsafe
      | false =>
          rw [hsensitive] at hsafe
          obtain ⟨⟨hkey, -, hredacted⟩, hsafe⟩ := fieldsSafe_cons.1 hsafe
          refine fieldsShown_cons.2 ⟨⟨⟨hproto, hkey⟩, fun _ => ?_⟩, ?_⟩
          · exact shown_of_redactValue .field value seen (hvalue hsensitive) hunseen.left hredacted
          · exact fieldsShown_of_redactEntries rest _ hrest
              (hunseen.right (seen_redactValue .field value seen)) hsafe

theorem shown_of_redactValue : ∀ (place : Place) (tree : Tree) (seen : List Identity),
    Shown false tree → Unseen seen tree.refs → Safe keysCount (redactValue place tree seen).1 →
      Shown keysCount tree
  | _, .primitive _, _, _, _, _ => .primitive
  | _, .text _, _, _, _, _ => .text
  | .field, .array ref items, seen, hplain, hunseen, hsafe => by
      obtain ⟨hnew, hitems⟩ := hunseen.of_cons
      rw [redactValue, if_neg hnew] at hsafe
      exact .array (shown_of_redactItems .element items _ (shown_array.1 hplain) hitems
        (safe_array.1 hsafe))
  | .element, .array ref items, seen, hplain, hunseen, hsafe => by
      obtain ⟨hnew, hitems⟩ := hunseen.of_cons
      rw [redactValue, if_neg hnew] at hsafe
      exact .array (shown_of_redactItems .field items _ (shown_array.1 hplain) hitems
        (fieldsSafe_indexed.1 (safe_object.1 hsafe)))
  | _, .object ref entries, seen, hplain, hunseen, hsafe => by
      obtain ⟨hnew, hentries⟩ := hunseen.of_cons
      rw [redactValue, if_neg hnew] at hsafe
      rw [shown_object] at hplain ⊢
      rw [safe_object, written_redactEntries hplain] at hsafe
      exact fieldsShown_of_redactEntries entries _ hplain hentries hsafe

theorem shown_of_redactItems : ∀ (place : Place) (items : List Tree) (seen : List Identity),
    (∀ item ∈ items, Shown false item) → Unseen seen (itemRefs items) →
      (∀ item ∈ (redactItems place items seen).1, Safe keysCount item) →
        ∀ item ∈ items, Shown keysCount item
  | _, [], _, _, _, _ => by simp
  | place, item :: rest, seen, hplain, hunseen, hsafe => by
      obtain ⟨hitem, hrest⟩ := List.forall_mem_cons.1 hplain
      rw [itemRefs] at hunseen
      rw [redactItems] at hsafe
      obtain ⟨hredacted, hothers⟩ := List.forall_mem_cons.1 hsafe
      exact List.forall_mem_cons.2
        ⟨shown_of_redactValue place item seen hitem hunseen.left hredacted,
          shown_of_redactItems place rest _ hrest
            (hunseen.right (seen_redactValue place item seen)) hothers⟩

end

/-! ## Merged entries -/

theorem keys_spread (first second : LogMetadata) :
    (spread first second).map Prod.fst =
      first.map Prod.fst ++ (second.map Prod.fst).filter fun key => key ∉ first.map Prod.fst := by
  rw [spread, List.map_append, List.map_map, List.filter_map]
  rfl

theorem nodup_keys_spread {first second : LogMetadata} (hfirst : (first.map Prod.fst).Nodup)
    (hsecond : (second.map Prod.fst).Nodup) : ((spread first second).map Prod.fst).Nodup := by
  rw [keys_spread]
  refine List.nodup_append.2 ⟨hfirst, hsecond.filter _, ?_⟩
  rintro key hkey other hother rfl
  exact absurd hkey (by simpa using (List.mem_filter.1 hother).2)

theorem lookup_eq_some (hdistinct : (entries.map Prod.fst).Nodup) {key : String} {value : Tree} :
    entries.lookup key = some value ↔ (key, value) ∈ entries := by
  rw [List.lookup_eq_some_iff]
  constructor
  · rintro ⟨before, behind, rfl, -⟩
    simp
  · intro hmem
    obtain ⟨before, behind, rfl⟩ := List.append_of_mem hmem
    refine ⟨before, behind, rfl, fun other hother => bne_iff_ne.2 ?_⟩
    rw [List.map_append, List.nodup_append] at hdistinct
    exact (hdistinct.2.2 other.1 (List.mem_map_of_mem hother) key (by simp)).symm

theorem lookup_eq_none {key : String} : entries.lookup key = none ↔ key ∉ entries.map Prod.fst := by
  rw [List.lookup_eq_none_iff, List.mem_map, not_exists]
  exact forall_congr' fun entry => by rw [bne_iff_ne, not_and, ne_comm]

/-- Spreading takes all of the second object, and what it leaves of the first. -/
theorem mem_spread {first second : LogMetadata} (hsecond : (second.map Prod.fst).Nodup)
    {entry : String × Tree} :
    entry ∈ spread first second ↔
      entry ∈ second ∨ entry ∈ first ∧ entry.1 ∉ second.map Prod.fst := by
  rw [spread, List.mem_append, List.mem_map, List.mem_filter, decide_eq_true_iff]
  constructor
  · rintro (⟨original, horiginal, rfl⟩ | ⟨hentry, -⟩)
    · cases hlookup : second.lookup original.1 with
      | some value => exact .inl ((lookup_eq_some hsecond).1 hlookup)
      | none => exact .inr ⟨horiginal, lookup_eq_none.1 hlookup⟩
    · exact .inl hentry
  · rintro (hentry | ⟨hentry, hkept⟩)
    · by_cases hkey : entry.1 ∈ first.map Prod.fst
      · obtain ⟨original, horiginal, hsame⟩ := List.mem_map.1 hkey
        refine .inl ⟨original, horiginal, ?_⟩
        rw [hsame, (lookup_eq_some hsecond).2 hentry]
        rfl
      · exact .inr ⟨hentry, hkey⟩
    · refine .inl ⟨entry, hentry, ?_⟩
      rw [lookup_eq_none.2 hkept]
      rfl

/-- The normalised metadata has no errors, no key twice and no object twice. -/
structure Normal (metadata : LogMetadata) : Prop where
  plain : FieldsShown false metadata
  distinct : (metadata.map Prod.fst).Nodup
  once : (entryRefs metadata).Nodup

theorem normal_nil : Normal [] where
  plain := fun _ hentry => nomatch hentry
  distinct := List.nodup_nil
  once := List.nodup_nil

theorem normal_single {key : String} {value : Tree} (hkey : key ≠ "__proto__")
    (hshown : Shown false value) (honce : value.refs.Nodup) : Normal [(key, value)] where
  plain := fieldsShown_cons.2
    ⟨⟨⟨hkey, fun h => nomatch h⟩, fun _ => hshown⟩, fun _ hentry => nomatch hentry⟩
  distinct := by simp
  once := by rwa [entryRefs, entryRefs, List.append_nil]

theorem nodup_keys_error {copied : LogMetadata} {name message : String} {stack : Option String}
    (hcopied : (copied.map Prod.fst).Nodup)
    (hkeys : ∀ key ∈ copied.map Prod.fst, key ∉ errorFields) :
    (([("name", .text name), ("message", .text message), ("stack", optionalText stack)] ++
      copied : LogMetadata).map Prod.fst).Nodup := by
  rw [List.map_append]
  refine List.nodup_append.2 ⟨by simp, hcopied, ?_⟩
  rintro key hkey other hother rfl
  refine hkeys key hother ?_
  simp only [List.map_cons, List.map_nil, List.mem_cons, List.not_mem_nil, or_false] at hkey
  rcases hkey with rfl | rfl | rfl <;> decide

/-- An object that is no array is copied to one with distinct keys. -/
theorem sanitizeValue_object (heap : Heap) (ref : ℕ) (harray : ∀ items, heap ref ≠ .array items) :
    ∃ entries, (sanitizeValue heap levels (.object ref) []).1 = .object (some ref) entries ∧
      (entries.map Prod.fst).Nodup := by
  rw [levels, sanitizeValue, if_neg List.not_mem_nil]
  cases hobject : heap ref with
  | array items => exact absurd hobject (harray items)
  | plain properties =>
      refine ⟨_, rfl, List.Nodup.sublist (List.filter_sublist.map Prod.fst) ?_⟩
      rw [keys_copyEach]
      exact properties.distinct
  | error name message stack properties =>
      refine ⟨_, rfl, nodup_keys_error ?_ fun key hkey => ?_⟩
      · rw [keys_copyEach]
        exact properties.distinct.sublist (List.filter_sublist.map Prod.fst)
      · rw [keys_copyEach] at hkey
        obtain ⟨original, horiginal, rfl⟩ := List.mem_map.1 hkey
        simpa using (List.mem_filter.1 horiginal).2

theorem normalizeLogMetadata_object (heap : Heap) (ref : ℕ)
    (harray : ∀ items, heap ref ≠ .array items) :
    (sanitizeValue heap levels (.object ref) []).1 =
      .object (some ref) (normalizeLogMetadata heap (.object ref)) := by
  obtain ⟨entries, hcopy, -⟩ := sanitizeValue_object heap ref harray
  rw [normalizeLogMetadata]
  split
  · rename_i items hobject
    exact absurd hobject (harray items)
  · rw [hcopy]

theorem normal_normalizeLogMetadata (heap : Heap) (metadata : Value) :
    Normal (normalizeLogMetadata heap metadata) := by
  cases metadata with
  | primitive value =>
      cases value with
      | undefined => exact normal_nil
      | null => exact normal_nil
      | boolean value => exact normal_single (by decide) .primitive List.nodup_nil
      | other identity => exact normal_single (by decide) .primitive List.nodup_nil
  | text value => exact normal_single (by decide) .text List.nodup_nil
  | bigint value => exact normal_single (by decide) .text List.nodup_nil
  | object ref =>
      by_cases harray : ∀ items, heap ref ≠ .array items
      · have hcopy := normalizeLogMetadata_object heap ref harray
        have hshown := shown_sanitizeValue heap levels (.object ref) []
        have hpasses := passes_sanitizeValue heap levels (.object ref) []
        obtain ⟨entries, hentries, hdistinct⟩ := sanitizeValue_object heap ref harray
        rw [hcopy] at hshown hpasses hentries
        injection hentries with _ hentries
        exact ⟨shown_object.1 hshown, hentries ▸ hdistinct, (List.nodup_cons.1 hpasses.nodup).2⟩
      · push Not at harray
        obtain ⟨items, hitems⟩ := harray
        have hpasses := passes_copyEach
          (passes_sanitizeValue heap (levels - 1)) items []
        rw [normalizeLogMetadata, hitems]
        refine normal_single (by decide) (.array (forall_mem_copyEach (fun item _ seen =>
          shown_sanitizeValue heap (levels - 1) item seen) [])) ?_
        rw [Tree.refs, itemRefs_eq]
        refine List.nodup_cons.2 ⟨fun hnone => ?_, hpasses.nodup⟩
        simpa using hpasses.kept none hnone

/-! ## The fields of an entry -/

variable {level : Level} {message : String} {metadata : LogMetadata}

def serviceField : String × Tree := ("service", .text "stellarsettle-api")

theorem mem_mergeEntry (hdistinct : (metadata.map Prod.fst).Nodup) {entry : String × Tree} :
    entry ∈ (mergeEntry level message metadata).fields ↔
      (entry = ("level", .text level.text) ∨ entry = ("message", .text message)) ∨
        (entry ∈ metadata ∨ entry = serviceField ∧ entry.1 ∉ metadata.map Prod.fst) ∧
          (entry.1 ≠ "level" ∧ entry.1 ≠ "message") := by
  rw [mergeEntry, mem_spread (by simp), mem_spread hdistinct, List.mem_pair, List.mem_singleton]
  simp only [List.map_cons, List.map_nil, List.mem_pair, not_or, serviceField]

theorem nodup_keys_mergeEntry (hdistinct : (metadata.map Prod.fst).Nodup) :
    ((mergeEntry level message metadata).fields.map Prod.fst).Nodup :=
  nodup_keys_spread (nodup_keys_spread (by simp) hdistinct) (by simp)

theorem redactMessage_fst (entry : String × Tree) : (redactMessage entry).1 = entry.1 := by
  unfold redactMessage
  split
  · split <;> rfl
  · rfl

theorem redactMessage_of_ne {entry : String × Tree} (hkey : entry.1 ≠ "message") :
    redactMessage entry = entry := by
  unfold redactMessage
  split
  · exact if_neg fun h => hkey h.1
  · rfl

theorem safe_redactMessage (message : String) :
    Safe keysCount (redactMessage ("message", .text message)).2 := by
  rw [redactMessage]
  split
  · exact .text (clearText_redactStringValue message)
  · rename_i hempty
    obtain rfl : message = "" := by simpa using hempty
    exact .text (by decide +kernel)

/-- The fields that are redacted. -/
def redactedFields (level : Level) (message : String) (metadata : LogMetadata) : LogMetadata :=
  ((mergeEntry level message metadata).fields.map redactMessage).filter fun field =>
    field.1 ∉ exempt

theorem mem_redactedFields (hdistinct : (metadata.map Prod.fst).Nodup) {entry : String × Tree} :
    entry ∈ redactedFields level message metadata ↔
      (entry ∈ metadata ∨ entry = serviceField ∧ entry.1 ∉ metadata.map Prod.fst) ∧
        entry.1 ∉ exempt := by
  rw [redactedFields, List.mem_filter, List.mem_map, decide_eq_true_iff]
  constructor
  · rintro ⟨⟨original, horiginal, rfl⟩, hkey⟩
    rw [redactMessage_fst] at hkey
    have hmessage : original.1 ≠ "message" := fun h => hkey (by simp [h, exempt])
    rw [redactMessage_of_ne hmessage]
    rcases (mem_mergeEntry hdistinct).1 horiginal with (rfl | rfl) | ⟨hentry, -⟩
    · exact absurd (by simp [exempt]) hkey
    · exact absurd rfl hmessage
    · exact ⟨hentry, hkey⟩
  · rintro ⟨hentry, hkey⟩
    have hlevel : entry.1 ≠ "level" := fun h => hkey (by simp [h, exempt])
    have hmessage : entry.1 ≠ "message" := fun h => hkey (by simp [h, exempt])
    exact ⟨⟨entry, (mem_mergeEntry hdistinct).2 (.inr ⟨hentry, hlevel, hmessage⟩),
      redactMessage_of_ne hmessage⟩, hkey⟩

theorem nodup_keys_redactedFields (hdistinct : (metadata.map Prod.fst).Nodup) :
    ((redactedFields level message metadata).map Prod.fst).Nodup := by
  refine List.Nodup.sublist (List.filter_sublist.map Prod.fst) ?_
  rw [List.map_map, show Prod.fst ∘ redactMessage = Prod.fst from funext redactMessage_fst]
  exact nodup_keys_mergeEntry hdistinct

/-- Fields with distinct keys that are among the metadata have no object twice. -/
theorem nodup_entryRefs (honce : (entryRefs metadata).Nodup)
    (hdistinct : (entries.map Prod.fst).Nodup)
    (hmem : ∀ entry ∈ entries, entry ∈ metadata ∨ entry.2.refs = []) :
    (entryRefs entries).Nodup := by
  rw [entryRefs_eq, List.nodup_flatMap] at honce ⊢
  obtain ⟨heach, hapart⟩ := honce
  have hsymm : Std.Symm (Function.onFun List.Disjoint fun entry : String × Tree => entry.2.refs) :=
    ⟨fun _ _ hdisjoint _ href hother => hdisjoint hother href⟩
  refine ⟨fun entry hentry => ?_, (List.pairwise_map.1 hdistinct).imp_of_mem ?_⟩
  · rcases hmem entry hentry with hmetadata | hnone
    · exact heach entry hmetadata
    · rw [hnone]
      exact List.nodup_nil
  · intro first second hfirst hsecond hkeys ref href hother
    change ref ∈ first.2.refs at href
    change ref ∈ second.2.refs at hother
    rcases hmem first hfirst with hfirstMem | hnone
    · rcases hmem second hsecond with hsecondMem | hnone
      · exact hapart.forall hfirstMem hsecondMem (ne_of_apply_ne Prod.fst hkeys) href hother
      · rw [hnone] at hother
        cases hother
    · rw [hnone] at href
      cases href

/-! ## The logger -/

structure Lawful (keysCount : Bool) (level : Level) (entry : LogEntry) : Prop where
  level : entry.levelSymbol = level
  fields : FieldsSafe keysCount entry.fields

theorem serviceField_shown :
    (serviceField.1 ≠ "__proto__" ∧ (keysCount = true → ClearText serviceField.1)) ∧
      (isSensitiveKey serviceField.1 = false → Shown keysCount serviceField.2) :=
  ⟨⟨by decide, fun _ => by decide +kernel⟩, fun _ => .text⟩

theorem level_clear (level : Level) : ClearText level.text := by
  cases level <;> decide +kernel

theorem exempt_clear : ∀ key ∈ exempt, ClearText key ∧ isSensitiveKey key = false := by
  decide +kernel

theorem plain_redactedFields (hnormal : Normal metadata) :
    FieldsShown false (redactedFields level message metadata) := by
  intro entry hentry
  rcases ((mem_redactedFields hnormal.distinct).1 hentry).1 with hmetadata | ⟨rfl, -⟩
  · exact hnormal.plain entry hmetadata
  · exact serviceField_shown

theorem fieldsSafe_redactedFields_iff (hnormal : Normal metadata) :
    FieldsSafe keysCount (redactEntries (redactedFields level message metadata) []).1 ↔
      FieldsShown keysCount (redactedFields level message metadata) := by
  constructor
  · refine fieldsShown_of_redactEntries _ [] (plain_redactedFields hnormal) ⟨?_, by simp⟩
    refine nodup_entryRefs hnormal.once (nodup_keys_redactedFields hnormal.distinct) ?_
    intro entry hentry
    refine ((mem_redactedFields hnormal.distinct).1 hentry).1.imp_right ?_
    rintro ⟨rfl, -⟩
    rfl
  · exact fieldsSafe_redactEntries _ []

theorem forall_mem_spread {holds : String × Tree → Prop} {first second : LogMetadata}
    (hsecond : (second.map Prod.fst).Nodup) :
    (∀ entry ∈ spread first second, holds entry) ↔
      (∀ entry ∈ second, holds entry) ∧
        ∀ entry ∈ first, entry.1 ∉ second.map Prod.fst → holds entry := by
  simp only [mem_spread hsecond, or_imp, forall_and, and_imp]

/-- The fields that are not redacted are exempt. -/
theorem not_mem_keys_redactedFields {entry : String × Tree}
    (hentry : entry ∈ (mergeEntry level message metadata).fields.map redactMessage) :
    entry.1 ∉ (redactedFields level message metadata).map Prod.fst ↔ entry.1 ∈ exempt := by
  constructor
  · intro hkept
    by_contra hkey
    exact hkept (List.mem_map_of_mem (List.mem_filter.2 ⟨hentry, by simpa using hkey⟩))
  · intro hkey hmem
    obtain ⟨other, hother, hsame⟩ := List.mem_map.1 hmem
    have hnot := (List.mem_filter.1 hother).2
    rw [hsame, decide_eq_true_iff] at hnot
    exact hnot hkey

theorem redactionFormat_fields (hnormal : Normal metadata) :
    FieldsSafe keysCount (redactionFormat (mergeEntry level message metadata)).fields ↔
      FieldsSafe keysCount (redactEntries (redactedFields level message metadata) []).1 ∧
        ∀ entry ∈ metadata, entry.1 = "timestamp" ∨ entry.1 = "stack" →
          Safe keysCount entry.2 := by
  have hkeys : ((redactEntries (redactedFields level message metadata) []).1.map
      Prod.fst).Nodup := by
    rw [keys_redactEntries]
    exact nodup_keys_redactedFields hnormal.distinct
  change FieldsSafe keysCount (spread _
    (written (redactEntries (redactedFields level message metadata) []).1)) ↔ _
  rw [written_redactEntries (plain_redactedFields hnormal), FieldsSafe, forall_mem_spread hkeys,
    keys_redactEntries]
  refine and_congr_right fun _ => ?_
  constructor
  · intro hsafe entry hentry hkey
    have hne : entry.1 ≠ "level" ∧ entry.1 ≠ "message" := by
      rcases hkey with h | h <;> rw [h] <;> decide
    have hfield : entry ∈ (mergeEntry level message metadata).fields.map redactMessage :=
      List.mem_map.2 ⟨entry, (mem_mergeEntry hnormal.distinct).2 (.inr ⟨.inl hentry, hne⟩),
        redactMessage_of_ne hne.2⟩
    refine (hsafe entry hfield ((not_mem_keys_redactedFields hfield).2 ?_)).2.2
    rcases hkey with h | h <;> simp [h, exempt]
  · intro hsafe entry hentry hkey
    rw [not_mem_keys_redactedFields hentry] at hkey
    obtain ⟨hclear, hplain⟩ := exempt_clear _ hkey
    refine ⟨fun _ => hclear, fun hsensitive => absurd hsensitive (Bool.eq_false_iff.1 hplain), ?_⟩
    obtain ⟨original, horiginal, rfl⟩ := List.mem_map.1 hentry
    rw [redactMessage_fst] at hkey
    rcases (mem_mergeEntry hnormal.distinct).1 horiginal with
      (rfl | rfl) | ⟨hmetadata | ⟨rfl, -⟩, hlevel, hmessage⟩
    · rw [redactMessage_of_ne (by simp)]
      exact .text (level_clear level)
    · exact safe_redactMessage message
    · rw [redactMessage_of_ne hmessage]
      refine hsafe original hmetadata ?_
      simpa [exempt, hlevel, hmessage] using hkey
    · exact absurd hkey (by decide)

/-- The service name shows no key that matches. -/
theorem fieldsShown_redactedFields_iff (hnormal : Normal metadata) :
    FieldsShown keysCount (redactedFields level message metadata) ↔
      (keysCount = true → ∀ entry ∈ metadata, entry.1 ∉ exempt →
        ClearText entry.1 ∧ (isSensitiveKey entry.1 = false → Shown keysCount entry.2)) := by
  have hmem {entry : String × Tree} :
      entry ∈ redactedFields level message metadata ↔ _ := mem_redactedFields hnormal.distinct
  cases keysCount with
  | false => simp [plain_redactedFields hnormal]
  | true =>
      constructor
      · intro hshown _ entry hentry hkey
        obtain ⟨⟨-, hclear⟩, hvalue⟩ := hshown entry (hmem.2 ⟨.inl hentry, hkey⟩)
        exact ⟨hclear rfl, hvalue⟩
      · intro hshown entry hentry
        obtain ⟨hmetadata | ⟨rfl, -⟩, hkey⟩ := hmem.1 hentry
        · obtain ⟨hclear, hvalue⟩ := hshown rfl entry hmetadata hkey
          exact ⟨⟨(hnormal.plain entry hmetadata).1.1, fun _ => hclear⟩, hvalue⟩
        · exact serviceField_shown

/-- A log entry is safe exactly when the fields that the redaction passes over are, and, if keys
count, no key that it shows matches a pattern. -/
theorem redactionFormat_lawful_iff (keysCount : Bool) (level : Level) (message : String)
    (heap : Heap) (metadata : Value) :
    Lawful keysCount level
        (redactionFormat (mergeEntry level message (normalizeLogMetadata heap metadata))) ↔
      (∀ entry ∈ normalizeLogMetadata heap metadata,
        entry.1 = "timestamp" ∨ entry.1 = "stack" → Safe keysCount entry.2) ∧
      (keysCount = true → ∀ entry ∈ normalizeLogMetadata heap metadata, entry.1 ∉ exempt →
        ClearText entry.1 ∧ (isSensitiveKey entry.1 = false → Shown keysCount entry.2)) := by
  have hnormal := normal_normalizeLogMetadata heap metadata
  calc
    _ ↔ FieldsSafe keysCount (redactionFormat
          (mergeEntry level message (normalizeLogMetadata heap metadata))).fields :=
      ⟨Lawful.fields, fun hfields => ⟨rfl, hfields⟩⟩
    _ ↔ FieldsShown keysCount
          (redactedFields level message (normalizeLogMetadata heap metadata)) ∧ _ := by
      rw [redactionFormat_fields hnormal, fieldsSafe_redactedFields_iff hnormal]
    _ ↔ _ := by
      rw [fieldsShown_redactedFields_iff hnormal, and_comm]

def secretKey : String := String.ofList ('S' :: List.replicate 55 'A')

def heapWithStack : Heap := fun _ => .plain ⟨[("stack", .text secretKey)], by simp⟩

/-- A secret key in the stack of the metadata leaves the logger. -/
theorem secretInStack_leaks : ¬Lawful false .error
    (redactionFormat (mergeEntry .error "payment failed"
      (normalizeLogMetadata heapWithStack (.object 0)))) := by
  intro hlawful
  have hnormal := normal_normalizeLogMetadata heapWithStack (.object 0)
  have hstack : ("stack", .text secretKey) ∈ normalizeLogMetadata heapWithStack (.object 0) :=
    List.mem_singleton.2 rfl
  have hsafe := ((redactionFormat_fields hnormal).1 hlawful.fields).2 _ hstack (.inr rfl)
  exact absurd (safe_text.1 hsafe) (by decide +kernel)

end StellarSettle.Redaction
