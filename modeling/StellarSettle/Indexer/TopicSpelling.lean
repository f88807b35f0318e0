import Mathlib
import StellarSettle.Indexer.ContractEventBus

/-!
# Spellings of a topic

A declared topic is a list of lower-case words, joined by underscores.  Dashes and blanks
between the words are normalised to underscores; a capital in PascalCase is only put in lower
case, so the words of a topic run together there.
-/

namespace StellarSettle.TopicSpelling

open StellarSettle.ContractEventBus
open StellarSettle.InvoiceLifecycle (isTrimmed)

/-! ## Topics -/

/-- Lower-case words; there is at least one, and none is empty. -/
structure Topic where
  words : List (List Char)
  words_ne_nil : words ≠ []
  word_ne_nil : ∀ word ∈ words, word ≠ []
  lowerCase : ∀ word ∈ words, ∀ c ∈ word, (c.isLower || c.isDigit) = true

def joinedBy (separator : Char) (words : List (List Char)) : List Char :=
  List.intercalate [separator] words

/-- The topic as handlers declare it. -/
def Topic.text (topic : Topic) : String := String.ofList (joinedBy '_' topic.words)

inductive Spelling where
  | snakeCase
  | kebabCase
  | spaced
  /-- Every word with a capital; those that are acronyms in capitals throughout. -/
  | pascalCase (acronym : List Char → Bool)

def capitalise : List Char → List Char
  | [] => []
  | c :: rest => c.toUpper :: rest

def pascalWord (acronym : List Char → Bool) (word : List Char) : List Char :=
  if acronym word then word.map Char.toUpper else capitalise word

def Spelling.letters (topic : Topic) : Spelling → List Char
  | .snakeCase => joinedBy '_' topic.words
  | .kebabCase => joinedBy '-' topic.words
  | .spaced => joinedBy ' ' topic.words
  | .pascalCase acronym => (topic.words.map (pascalWord acronym)).flatten

def Spelling.spell (spelling : Spelling) (topic : Topic) : String :=
  String.ofList (spelling.letters topic)

def Spelling.IsPascalCase : Spelling → Prop
  | .pascalCase _ => True
  | _ => False

/-- The spelling reaches the handlers of the topic, and those of no other topic. -/
structure SpelledAlike (topic : Topic) (spelling : Spelling) : Prop where
  sameKey : normalizeTopic (spelling.spell topic) = normalizeTopic topic.text
  sameHandlers : ∀ handlers, handlersFor (createContractEventBus handlers) (spelling.spell topic) =
    handlersFor (createContractEventBus handlers) topic.text
  distinct : ∀ other : Topic, normalizeTopic other.text = normalizeTopic (spelling.spell topic) →
    other.words = topic.words

/-! ## Letters -/

def isWordChar (c : Char) : Bool := c.isAlpha || c.isDigit

section Letters

variable {c : Char}

theorem isWordChar_iff : isWordChar c = true ↔
    (65 ≤ c.toNat ∧ c.toNat ≤ 90) ∨ (97 ≤ c.toNat ∧ c.toNat ≤ 122) ∨
      (48 ≤ c.toNat ∧ c.toNat ≤ 57) := by
  simp only [isWordChar, Char.isAlpha, Char.isUpper, Char.isLower, Char.isDigit, Bool.or_eq_true,
    Bool.and_eq_true, decide_eq_true_eq, ge_iff_le, UInt32.le_iff_toNat_le]
  rw [or_assoc]
  rfl

theorem isTrimmed_of_isWordChar (hword : isWordChar c = true) : isTrimmed c = false := by
  have hrange := isWordChar_iff.mp hword
  simp only [isTrimmed, Bool.or_eq_false_iff, Bool.and_eq_false_iff, decide_eq_false_iff_not,
    List.contains_eq_mem, List.mem_cons, List.not_mem_nil, or_false]
  omega

theorem ne_of_isWordChar {other : Char} (hword : isWordChar c = true)
    (hother : isWordChar other = false) : c ≠ other := by
  rintro rfl
  rw [hword] at hother
  cases hother

theorem isWordChar_toUpper (hword : isWordChar c = true) : isWordChar c.toUpper = true := by
  rw [isWordChar, Char.isAlpha_toUpper_eq_isAlpha]
  rcases Bool.or_eq_true_iff.mp hword with hletter | hdigit
  · rw [hletter, Bool.true_or]
  · rcases Bool.eq_false_or_eq_true c.isLower with hlower | hother
    · rw [Char.isAlpha, hlower, Bool.or_true, Bool.true_or]
    · rw [Char.toUpper_eq_of_not_isLower (ne_true_of_eq_false hother), hdigit, Bool.or_true]

theorem isWordChar_of_lowerCase (hlower : (c.isLower || c.isDigit) = true) :
    isWordChar c = true := by
  rw [isWordChar, Char.isAlpha]
  rcases Bool.or_eq_true_iff.mp hlower with hletter | hdigit
  · rw [hletter, Bool.or_true, Bool.true_or]
  · rw [hdigit, Bool.or_true]

theorem toLower_of_lowerCase (hlower : (c.isLower || c.isDigit) = true) : c.toLower = c := by
  apply Char.toLower_eq_of_not_isUpper
  simp only [Char.isLower, Char.isDigit, Bool.or_eq_true, Bool.and_eq_true, decide_eq_true_eq,
    ge_iff_le, UInt32.le_iff_toNat_le] at hlower
  change (97 ≤ c.toNat ∧ c.toNat ≤ 122) ∨ (48 ≤ c.toNat ∧ c.toNat ≤ 57) at hlower
  simp only [Char.isUpper, decide_eq_true_eq, ge_iff_le, UInt32.le_iff_toNat_le]
  change ¬ (65 ≤ c.toNat ∧ c.toNat ≤ 90)
  omega

end Letters

/-! ## Words -/

section Words

variable {word : List Char}

theorem joinWords_cons_word {c : Char} {rest : List Char} (inRun : Bool)
    (hword : isWordChar c = true) :
    joinWords inRun (c :: rest) = c :: joinWords false rest := by
  have hother : ¬(c = '-' ∨ isTrimmed c = true) := by
    rintro (hdash | hblank)
    · exact ne_of_isWordChar hword (by decide) hdash
    · rw [isTrimmed_of_isWordChar hword] at hblank
      cases hblank
  rw [joinWords, if_neg hother]

theorem joinWords_word (inRun : Bool) (rest : List Char) (hne : word ≠ [])
    (hword : ∀ c ∈ word, isWordChar c = true) :
    joinWords inRun (word ++ rest) = word ++ joinWords false rest := by
  induction word generalizing inRun with
  | nil => exact absurd rfl hne
  | cons c others ih =>
      rw [List.cons_append, joinWords_cons_word inRun (hword c List.mem_cons_self)]
      cases others with
      | nil => rfl
      | cons next more =>
          rw [ih false (List.cons_ne_nil _ _) fun d hd => hword d (List.mem_cons_of_mem _ hd)]
          rfl

theorem joinWords_separator {separator : Char} (rest : List Char)
    (hseparator : separator = '_' ∨ separator = '-' ∨ separator = ' ') :
    ∃ inRun, joinWords false (separator :: rest) = '_' :: joinWords inRun rest := by
  rcases hseparator with rfl | rfl | rfl
  · exact ⟨false, rfl⟩
  · exact ⟨true, rfl⟩
  · exact ⟨true, rfl⟩

/-- The words stay, and one underscore takes the place of each separator. -/
theorem joinWords_joinedBy {separator : Char} {words : List (List Char)}
    (hseparator : separator = '_' ∨ separator = '-' ∨ separator = ' ') (inRun : Bool)
    (hne : ∀ word ∈ words, word ≠ [])
    (hword : ∀ word ∈ words, ∀ c ∈ word, isWordChar c = true) :
    joinWords inRun (joinedBy separator words) = joinedBy '_' words := by
  induction words generalizing inRun with
  | nil => rfl
  | cons word others ih =>
      have hhead := hne word List.mem_cons_self
      have hletters := hword word List.mem_cons_self
      cases others with
      | nil =>
          have hone := joinWords_word inRun [] hhead hletters
          simpa [joinedBy, joinWords] using hone
      | cons next more =>
          have hrest := fun after => ih after
            (fun other hother => hne other (List.mem_cons_of_mem _ hother))
            (fun other hother => hword other (List.mem_cons_of_mem _ hother))
          obtain ⟨after, hafter⟩ :=
            joinWords_separator (joinedBy separator (next :: more)) hseparator
          calc joinWords inRun (joinedBy separator (word :: next :: more))
              = joinWords inRun (word ++ separator :: joinedBy separator (next :: more)) := by
                rw [joinedBy, List.intercalate_cons_cons, List.append_assoc]
                rfl
            _ = word ++ '_' :: joinWords after (joinedBy separator (next :: more)) := by
                rw [joinWords_word inRun _ hhead hletters, hafter]
            _ = joinedBy '_' (word :: next :: more) := by
                rw [hrest after, joinedBy, joinedBy, List.intercalate_cons_cons,
                  List.append_assoc]
                rfl

/-- A text that begins and ends with letters of words has nothing to trim. -/
theorem trim_of_ends {text before after : List Char} {first last : Char}
    (hfirst : text = first :: after) (hlast : text = before ++ [last])
    (hfirstWord : isWordChar first = true) (hlastWord : isWordChar last = true) :
    trim text = text := by
  have hbegin : text.dropWhile isTrimmed = text := by
    rw [hfirst, List.dropWhile_cons_of_neg]
    rw [isTrimmed_of_isWordChar hfirstWord]
    exact Bool.false_ne_true
  have hend : text.reverse.dropWhile isTrimmed = text.reverse := by
    rw [hlast, List.reverse_append, List.reverse_singleton, List.singleton_append,
      List.dropWhile_cons_of_neg]
    rw [isTrimmed_of_isWordChar hlastWord]
    exact Bool.false_ne_true
  rw [trim, hbegin, hend, List.reverse_reverse]

theorem exists_first (separator : Char) {words : List (List Char)} (hwords : words ≠ [])
    (hne : ∀ word ∈ words, word ≠ []) (hword : ∀ word ∈ words, ∀ c ∈ word, isWordChar c = true) :
    ∃ first after, joinedBy separator words = first :: after ∧ isWordChar first = true := by
  cases words with
  | nil => exact absurd rfl hwords
  | cons word others =>
      cases word with
      | nil => exact absurd rfl (hne [] List.mem_cons_self)
      | cons first letters =>
          have hfirst := hword _ List.mem_cons_self first List.mem_cons_self
          cases others with
          | nil => exact ⟨first, letters, by simp [joinedBy], hfirst⟩
          | cons next more =>
              refine ⟨first, letters ++ [separator] ++ joinedBy separator (next :: more), ?_,
                hfirst⟩
              rw [joinedBy, List.intercalate_cons_cons]
              rfl

theorem exists_last (separator : Char) {words : List (List Char)} (hwords : words ≠ [])
    (hne : ∀ word ∈ words, word ≠ []) (hword : ∀ word ∈ words, ∀ c ∈ word, isWordChar c = true) :
    ∃ before last, joinedBy separator words = before ++ [last] ∧ isWordChar last = true := by
  induction words with
  | nil => exact absurd rfl hwords
  | cons word others ih =>
      cases others with
      | nil =>
          have hnonempty := hne word List.mem_cons_self
          refine ⟨word.dropLast, word.getLast hnonempty, ?_,
            hword word List.mem_cons_self _ (List.getLast_mem hnonempty)⟩
          rw [joinedBy, List.intercalate_singleton, List.dropLast_append_getLast]
      | cons next more =>
          obtain ⟨before, last, hlast, hlastWord⟩ := ih (List.cons_ne_nil _ _)
            (fun other hother => hne other (List.mem_cons_of_mem _ hother))
            (fun other hother => hword other (List.mem_cons_of_mem _ hother))
          refine ⟨word ++ [separator] ++ before, last, ?_, hlastWord⟩
          rw [joinedBy, List.intercalate_cons_cons, ← joinedBy, hlast, List.append_assoc _ before]

end Words

/-! ## Normalised spellings -/

section Normalised

variable {topic : Topic}

theorem normalizeTopic_ofList (letters : List Char) :
    normalizeTopic (String.ofList letters) =
      String.ofList ((joinWords false (trim letters)).map Char.toLower) := by
  rw [normalizeTopic, String.toList_ofList, String.toLower, ← String.toList_inj, String.toList_map,
    String.toList_ofList, String.toList_ofList]

theorem Topic.isWordChar (topic : Topic) :
    ∀ word ∈ topic.words, ∀ c ∈ word, isWordChar c = true :=
  fun word hword c hc => isWordChar_of_lowerCase (topic.lowerCase word hword c hc)

theorem map_toLower_joinedBy {words : List (List Char)}
    (hlower : ∀ word ∈ words, ∀ c ∈ word, (c.isLower || c.isDigit) = true) :
    (joinedBy '_' words).map Char.toLower = joinedBy '_' words := by
  have hmap : ∀ word ∈ words, word.map Char.toLower = word := fun word hword =>
    (List.map_congr_left fun c hc => toLower_of_lowerCase (hlower word hword c hc)).trans
      (List.map_id word)
  clear hlower
  induction words with
  | nil => rfl
  | cons word others ih =>
      cases others with
      | nil => simpa [joinedBy] using hmap word List.mem_cons_self
      | cons next more =>
          have hrest := ih fun other hother => hmap other (List.mem_cons_of_mem _ hother)
          rw [joinedBy, List.intercalate_cons_cons, ← joinedBy, List.map_append, List.map_append,
            hmap word List.mem_cons_self, hrest]
          rfl

/-- Words that are joined by one of the separators are normalised to the topic. -/
theorem normalizeTopic_joinedBy (topic : Topic) {separator : Char}
    (hseparator : separator = '_' ∨ separator = '-' ∨ separator = ' ') :
    normalizeTopic (String.ofList (joinedBy separator topic.words)) = topic.text := by
  obtain ⟨first, after, hfirst, hfirstWord⟩ :=
    exists_first separator topic.words_ne_nil topic.word_ne_nil topic.isWordChar
  obtain ⟨before, last, hlast, hlastWord⟩ :=
    exists_last separator topic.words_ne_nil topic.word_ne_nil topic.isWordChar
  rw [normalizeTopic_ofList, trim_of_ends hfirst hlast hfirstWord hlastWord,
    joinWords_joinedBy hseparator false topic.word_ne_nil topic.isWordChar,
    map_toLower_joinedBy topic.lowerCase, Topic.text]

theorem normalizeTopic_text (topic : Topic) : normalizeTopic topic.text = topic.text :=
  normalizeTopic_joinedBy topic (.inl rfl)

/-- Distinct topics are distinct texts. -/
theorem words_eq_of_text {other : Topic} (hsame : other.text = topic.text) :
    other.words = topic.words := by
  have hseparator : ∀ (one : Topic), ∀ word ∈ one.words, '_' ∉ word := by
    intro one word hword hmem
    exact ne_of_isWordChar (one.isWordChar word hword '_' hmem) (by decide) rfl
  have hletters : joinedBy '_' other.words = joinedBy '_' topic.words :=
    String.ofList_injective hsame
  calc other.words = (joinedBy '_' other.words).splitOn '_' :=
        (List.splitOn_intercalate '_' (hseparator other) other.words_ne_nil).symm
    _ = topic.words := by
        rw [hletters, joinedBy, List.splitOn_intercalate '_' (hseparator topic) topic.words_ne_nil]

end Normalised

/-! ## PascalCase -/

section PascalCase

variable {acronym : List Char → Bool}

theorem isWordChar_pascalWord {word : List Char} (hword : ∀ c ∈ word, isWordChar c = true) :
    ∀ c ∈ pascalWord acronym word, isWordChar c = true := by
  intro c hc
  rw [pascalWord] at hc
  split at hc
  · obtain ⟨letter, hletter, rfl⟩ := List.mem_map.mp hc
    exact isWordChar_toUpper (hword letter hletter)
  · cases word with
    | nil => cases hc
    | cons first rest =>
        rcases List.mem_cons.mp hc with rfl | hrest
        · exact isWordChar_toUpper (hword first List.mem_cons_self)
        · exact hword c (List.mem_cons_of_mem _ hrest)

theorem map_toLower_pascalWord {word : List Char}
    (hlower : ∀ c ∈ word, (c.isLower || c.isDigit) = true) :
    (pascalWord acronym word).map Char.toLower = word := by
  have hmap : word.map Char.toLower = word :=
    (List.map_congr_left fun c hc => toLower_of_lowerCase (hlower c hc)).trans (List.map_id word)
  rw [pascalWord]
  split
  · rw [List.map_map]
    refine Eq.trans (List.map_congr_left fun c _ => ?_) hmap
    exact Char.toLower_toUpper_eq_toLower c
  · cases word with
    | nil => rfl
    | cons first rest =>
        rw [capitalise, List.map_cons, Char.toLower_toUpper_eq_toLower]
        exact hmap

theorem pascalWord_ne_nil {word : List Char} (hne : word ≠ []) : pascalWord acronym word ≠ [] := by
  cases word with
  | nil => exact absurd rfl hne
  | cons first rest =>
      rw [pascalWord]
      split
      · exact List.cons_ne_nil _ _
      · exact List.cons_ne_nil _ _

/-- In PascalCase the words run together. -/
theorem normalizeTopic_pascalCase (topic : Topic) :
    normalizeTopic ((Spelling.pascalCase acronym).spell topic) =
      String.ofList topic.words.flatten := by
  have hletters : ∀ c ∈ (topic.words.map (pascalWord acronym)).flatten, isWordChar c = true := by
    intro c hc
    obtain ⟨_, hmem, hc⟩ := List.mem_flatten.mp hc
    obtain ⟨word, hword, rfl⟩ := List.mem_map.mp hmem
    exact isWordChar_pascalWord (topic.isWordChar word hword) c hc
  have hne : (topic.words.map (pascalWord acronym)).flatten ≠ [] := by
    obtain ⟨word, hword⟩ := List.exists_mem_of_ne_nil _ topic.words_ne_nil
    intro hnil
    exact pascalWord_ne_nil (topic.word_ne_nil word hword)
      (List.flatten_eq_nil_iff.mp hnil _ (List.mem_map_of_mem hword))
  have htrim : trim (topic.words.map (pascalWord acronym)).flatten =
      (topic.words.map (pascalWord acronym)).flatten :=
    trim_of_ends (List.cons_head_tail hne).symm (List.dropLast_append_getLast hne).symm
      (hletters _ (List.head_mem hne)) (hletters _ (List.getLast_mem hne))
  have hjoin := joinWords_word false [] hne hletters
  rw [List.append_nil, joinWords, List.append_nil] at hjoin
  rw [Spelling.spell, Spelling.letters, normalizeTopic_ofList, htrim, hjoin, List.map_flatten,
    List.map_map]
  congr 2
  refine Eq.trans (List.map_congr_left fun word hword => ?_) (List.map_id topic.words)
  exact map_toLower_pascalWord (topic.lowerCase word hword)

theorem length_joinedBy (separator : Char) {words : List (List Char)} (hwords : words ≠ []) :
    (joinedBy separator words).length + 1 = words.flatten.length + words.length := by
  induction words with
  | nil => exact absurd rfl hwords
  | cons word others ih =>
      cases others with
      | nil => simp [joinedBy]
      | cons next more =>
          have hrest := ih (List.cons_ne_nil _ _)
          rw [joinedBy, List.intercalate_cons_cons, ← joinedBy]
          simp only [List.length_append, List.length_nil, List.flatten_cons,
            List.length_cons] at hrest ⊢
          omega

end PascalCase

/-- A spelling is normalised to the topic unless it is PascalCase and of several words. -/
theorem normalizeTopic_spell_iff (topic : Topic) (spelling : Spelling) :
    normalizeTopic (spelling.spell topic) = topic.text ↔
      ¬spelling.IsPascalCase ∨ topic.words.length = 1 := by
  cases spelling with
  | snakeCase => exact iff_of_true (normalizeTopic_joinedBy topic (.inl rfl)) (.inl id)
  | kebabCase => exact iff_of_true (normalizeTopic_joinedBy topic (.inr (.inl rfl))) (.inl id)
  | spaced => exact iff_of_true (normalizeTopic_joinedBy topic (.inr (.inr rfl))) (.inl id)
  | pascalCase acronym =>
      rw [normalizeTopic_pascalCase]
      have hlength := length_joinedBy '_' topic.words_ne_nil
      constructor
      · intro hsame
        have hletters : topic.words.flatten = joinedBy '_' topic.words :=
          String.ofList_injective hsame
        rw [← hletters] at hlength
        exact .inr (by omega)
      · rintro (hnever | hone)
        · exact absurd trivial hnever
        · obtain ⟨word, hwords⟩ := List.length_eq_one_iff.mp hone
          rw [Topic.text, hwords]
          simp [joinedBy]

theorem spelledAlike_iff (topic : Topic) (spelling : Spelling) :
    SpelledAlike topic spelling ↔ ¬spelling.IsPascalCase ∨ topic.words.length = 1 := by
  rw [← normalizeTopic_spell_iff]
  constructor
  · intro hspelled
    rw [hspelled.sameKey, normalizeTopic_text]
  · intro hkey
    refine ⟨by rw [hkey, normalizeTopic_text], fun handlers => ?_, fun other hsame => ?_⟩
    · rw [handlersFor, handlersFor, hkey, normalizeTopic_text]
    · rw [normalizeTopic_text, hkey] at hsame
      exact words_eq_of_text hsame

/-! ## An acronym -/

def aclUpdated : Topic :=
  { words := [['a', 'c', 'l'], ['u', 'p', 'd', 'a', 't', 'e', 'd']]
    words_ne_nil := List.cons_ne_nil _ _
    word_ne_nil := by simp
    lowerCase := by simp [Char.isLower] }

def aclAcronym : Spelling := .pascalCase fun word => word == ['a', 'c', 'l']

/-- The handler of `acl_updated` does not hear of `ACLUpdated`. -/
theorem aclUpdated_notHeard :
    aclUpdated.text = "acl_updated" ∧ aclAcronym.spell aclUpdated = "ACLUpdated" ∧
      normalizeTopic "ACLUpdated" = "aclupdated" ∧
      handlersFor (createContractEventBus [⟨0, ["acl_updated"]⟩]) "acl_updated" =
        [⟨0, ["acl_updated"]⟩] ∧
      handlersFor (createContractEventBus [⟨0, ["acl_updated"]⟩]) "ACLUpdated" = [] ∧
      ¬SpelledAlike aclUpdated aclAcronym := by
  have hother : normalizeTopic (aclAcronym.spell aclUpdated) ≠ normalizeTopic aclUpdated.text := by
    decide +kernel
  exact ⟨by decide +kernel, by decide +kernel, by decide +kernel, by decide +kernel,
    by decide +kernel, fun hspelled => hother hspelled.sameKey⟩

end StellarSettle.TopicSpelling
