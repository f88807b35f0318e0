import Mathlib.Data.List.Basic
import Mathlib.Data.List.Infix

/-!
# Patterns of repeated characters

A pattern is a sequence of character classes, each repeated between two bounds.  Matching takes
as many characters for a class as the rest allows.  Replacing puts one text in the place of
every match, from left to right.
-/

namespace StellarSettle.TextPatterns

/-- A class of characters with its repetitions.  Without an upper bound there may be any number. -/
structure Piece where
  accepts : Char → Bool
  least : ℕ
  most : Option ℕ

def Piece.admits (piece : Piece) (count : ℕ) : Bool :=
  decide (piece.least ≤ count) && piece.most.all fun bound => decide (count ≤ bound)

def once (accepts : Char → Bool) : Piece := { accepts := accepts, least := 1, most := some 1 }

theorem Piece.admits_iff {piece : Piece} {count : ℕ} :
    piece.admits count = true ↔ piece.least ≤ count ∧ ∀ bound ∈ piece.most, count ≤ bound := by
  rw [Piece.admits, Bool.and_eq_true, decide_eq_true_iff, Option.all_eq_true_iff_get]
  cases piece.most <;> simp

theorem once_admits {accepts : Char → Bool} {count : ℕ} :
    (once accepts).admits count = true ↔ count = 1 := by
  rw [Piece.admits_iff, once, le_antisymm_iff, and_comm]
  simp

/-- The pieces of a text that is matched as it stands. -/
def literal (text : String) : List Piece := text.toList.map fun c => once (· == c)

/-- The length of the first match at the start of a text, counting down the repetitions. -/
def matchLength : List Piece → List Char → Option ℕ
  | [], _ => some 0
  | piece :: rest, text =>
      let longest := (text.takeWhile piece.accepts).length
      ((List.range (longest + 1)).reverse.filter piece.admits).findSome? fun count =>
        (matchLength rest (text.drop count)).map (count + ·)

/-- The words of a pattern. -/
inductive Spells : List Piece → List Char → Prop where
  | nil : Spells [] []
  | cons {piece : Piece} {rest : List Piece} {first later : List Char}
      (haccepts : ∀ c ∈ first, piece.accepts c = true) (hcount : piece.admits first.length = true)
      (hlater : Spells rest later) : Spells (piece :: rest) (first ++ later)

/-- A word of the pattern stands at the start of the text. -/
def StartsWith (pattern : List Piece) (text : List Char) : Prop :=
  ∃ word, word <+: text ∧ Spells pattern word

/-- No word of the pattern stands anywhere in the text. -/
def Clean (pattern : List Piece) (text : List Char) : Prop :=
  ∀ suffix, suffix <:+ text → ¬StartsWith pattern suffix

/-- One text in the place of every match, from left to right.  The count says how many characters
of the last match are still to be passed over.  No match is empty. -/
def replaceFrom (pattern : List Piece) (mask : List Char) : ℕ → List Char → List Char
  | _, [] => []
  | skipped + 1, _ :: rest => replaceFrom pattern mask skipped rest
  | 0, c :: rest =>
      match matchLength pattern (c :: rest) with
      | some length => mask ++ replaceFrom pattern mask (length - 1) rest
      | none => c :: replaceFrom pattern mask 0 rest

def replaceAll (pattern : List Piece) (mask text : List Char) : List Char :=
  replaceFrom pattern mask 0 text

/-- The last character of a word of the pattern may be this one. -/
def mayEnd : List Piece → Char → Bool
  | [], _ => false
  | piece :: rest, c =>
      mayEnd rest c || (piece.accepts c && rest.all fun later => later.least == 0)

/-- A text put in the place of matches: the start that all matches share, then characters with
which no word ends, then some that no word has. -/
structure Mask where
  shared : List Char
  gap : List Char
  marks : List Char

def Mask.text (mask : Mask) : List Char := mask.shared ++ (mask.gap ++ mask.marks)

/-- The character is in no word of the pattern. -/
def foreign (pattern : List Piece) (c : Char) : Bool := pattern.all fun piece => !piece.accepts c

/-- No word of the pattern stands in the mask, goes on into its marks or comes out of them. -/
def Mask.Hides (mask : Mask) (pattern : List Piece) : Prop :=
  mask.gap.any (mayEnd pattern) = false ∧ mask.marks.head?.any (foreign pattern) = true ∧
    mask.marks.getLast?.any (foreign pattern) = true ∧ Clean pattern mask.text

/-! ## Texts with separators -/

/-- A label without the separator ends at the first one. -/
theorem splitsAt {separator : Char} {left right leftRest rightRest : List Char}
    (hleft : separator ∉ left) (hright : separator ∉ right)
    (hsame : left ++ separator :: leftRest = right ++ separator :: rightRest) :
    left = right ∧ leftRest = rightRest := by
  induction left generalizing right with
  | nil =>
      cases right with
      | nil => exact ⟨rfl, List.tail_eq_of_cons_eq hsame⟩
      | cons c rest => exact absurd (List.head_eq_of_cons_eq hsame ▸ List.mem_cons_self) hright
  | cons c rest ih =>
      cases right with
      | nil =>
          exact absurd (List.head_eq_of_cons_eq hsame.symm ▸ List.mem_cons_self) hleft
      | cons other others =>
          obtain ⟨rfl, hrest⟩ := List.cons_eq_cons.mp hsame
          obtain ⟨rfl, hrests⟩ := ih (List.not_mem_of_not_mem_cons hleft)
            (List.not_mem_of_not_mem_cons hright) hrest
          exact ⟨rfl, hrests⟩

theorem not_mem_toString {c : Char} (hc : c.isDigit = false) (number : ℕ) :
    c ∉ (toString number).toList := by
  intro hmem
  rw [Nat.toString_eq_repr, Nat.toList_repr] at hmem
  rw [Nat.isDigit_of_mem_toDigits (by decide) (by decide) hmem] at hc
  cases hc

theorem toString_injective {first second : ℕ} (hsame : toString first = toString second) :
    first = second := by
  have hdigits : Nat.toDigits 10 first = Nat.toDigits 10 second := by
    rw [← Nat.toList_repr, ← Nat.toList_repr]
    exact congrArg String.toList hsame
  calc first = Nat.ofDigitChars 10 (Nat.toDigits 10 first) 0 :=
        (Nat.ofDigitChars_toDigits (by decide) (by decide)).symm
    _ = second := by rw [hdigits, Nat.ofDigitChars_toDigits (by decide) (by decide)]

variable {pattern : List Piece} {text word : List Char}

/-! ## Matching finds the words -/

theorem le_length_takeWhile {accepts : Char → Bool} {count : ℕ} :
    count ≤ (text.takeWhile accepts).length ↔
      count ≤ text.length ∧ ∀ c ∈ text.take count, accepts c = true := by
  induction text generalizing count with
  | nil => simp
  | cons c rest ih =>
      cases count with
      | zero => simp
      | succ count =>
          cases hc : accepts c with
          | false => simp [hc]
          | true => simp [hc, ih]

theorem spells_of_matchLength {length : ℕ} (hmatch : matchLength pattern text = some length) :
    length ≤ text.length ∧ Spells pattern (text.take length) := by
  induction pattern generalizing text length with
  | nil =>
      rw [matchLength, Option.some_inj] at hmatch
      rw [← hmatch, List.take_zero]
      exact ⟨Nat.zero_le _, .nil⟩
  | cons piece rest ih =>
      rw [matchLength] at hmatch
      obtain ⟨count, hcount, hrest⟩ := List.exists_of_findSome?_eq_some hmatch
      obtain ⟨later, hlater, rfl⟩ := Option.map_eq_some_iff.1 hrest
      obtain ⟨hrange, hadmits⟩ := List.mem_filter.1 hcount
      obtain ⟨hcount, haccepts⟩ := le_length_takeWhile.1
        (show count ≤ (text.takeWhile piece.accepts).length by
          simpa [Nat.lt_succ_iff] using hrange)
      obtain ⟨hlength, hspells⟩ := ih hlater
      rw [List.length_drop] at hlength
      rw [List.take_add]
      refine ⟨by omega, .cons haccepts ?_ hspells⟩
      rwa [List.length_take, min_eq_left hcount]

theorem exists_matchLength_of_spells (hword : Spells pattern word) (hinitial : word <+: text) :
    ∃ length, matchLength pattern text = some length := by
  induction hword generalizing text with
  | nil => exact ⟨0, rfl⟩
  | @cons piece rest first later haccepts hcount hlater ih =>
      obtain ⟨behind, rfl⟩ := hinitial
      rw [List.append_assoc]
      obtain ⟨length, hrest⟩ := ih (List.prefix_append later behind)
      rw [← Option.isSome_iff_exists, matchLength, List.findSome?_isSome_iff]
      refine ⟨first.length, List.mem_filter.2 ⟨?_, hcount⟩, ?_⟩
      · have hlongest : first.length ≤
            ((first ++ (later ++ behind)).takeWhile piece.accepts).length :=
          le_length_takeWhile.2 ⟨by simp, by simpa using haccepts⟩
        simpa [Nat.lt_succ_iff] using hlongest
      · rw [List.drop_left, hrest]
        rfl

/-- A pattern matches at the start of a text exactly when one of its words stands there. -/
theorem startsWith_iff : StartsWith pattern text ↔ (matchLength pattern text).isSome = true := by
  constructor
  · rintro ⟨word, hinitial, hword⟩
    exact Option.isSome_iff_exists.2 (exists_matchLength_of_spells hword hinitial)
  · intro hsome
    obtain ⟨length, hlength⟩ := Option.isSome_iff_exists.1 hsome
    exact ⟨_, List.take_prefix length text, (spells_of_matchLength hlength).2⟩

instance : Decidable (StartsWith pattern text) := decidable_of_iff _ startsWith_iff.symm

/-! ## Words in parts -/

theorem startsWith_nil : StartsWith [] text := ⟨[], List.nil_prefix, .nil⟩

theorem spells_nil : Spells [] word ↔ word = [] :=
  ⟨fun hword => by cases hword; rfl, fun hword => hword ▸ .nil⟩

theorem spells_once {accepts : Char → Bool} {rest : List Piece} :
    Spells (once accepts :: rest) word ↔
      ∃ c later, word = c :: later ∧ accepts c = true ∧ Spells rest later := by
  constructor
  · intro hword
    cases hword with
    | @cons _ _ first later haccepts hcount hlater =>
        obtain ⟨c, rfl⟩ := List.length_eq_one_iff.1 (once_admits.1 hcount)
        exact ⟨c, later, rfl, haccepts c (by simp), hlater⟩
  · rintro ⟨c, later, rfl, hc, hlater⟩
    have haccepts : ∀ other ∈ [c], (once accepts).accepts other = true := by simpa [once] using hc
    exact .cons haccepts (once_admits.2 rfl) hlater

theorem spells_append {later : List Piece} :
    Spells (pattern ++ later) word ↔
      ∃ front back, word = front ++ back ∧ Spells pattern front ∧ Spells later back := by
  constructor
  · intro hword
    induction pattern generalizing word with
    | nil => exact ⟨[], word, rfl, .nil, hword⟩
    | cons piece rest ih =>
        rw [List.cons_append] at hword
        cases hword with
        | @cons _ _ first remaining haccepts hcount hremaining =>
            obtain ⟨front, back, rfl, hfront, hback⟩ := ih hremaining
            exact ⟨first ++ front, back, by rw [List.append_assoc],
              .cons haccepts hcount hfront, hback⟩
  · rintro ⟨front, back, rfl, hfront, hback⟩
    induction hfront with
    | nil => exact hback
    | @cons piece rest first remaining haccepts hcount _ ih =>
        rw [List.append_assoc, List.cons_append]
        exact .cons haccepts hcount ih

/-- The characters of a word are those that its pattern accepts. -/
theorem Spells.exists_accepts (hword : Spells pattern word) {c : Char} (hc : c ∈ word) :
    ∃ piece ∈ pattern, piece.accepts c = true := by
  induction hword with
  | nil => cases hc
  | @cons piece rest first later haccepts _ _ ih =>
      rcases List.mem_append.1 hc with hfirst | hlater
      · exact ⟨piece, by simp, haccepts c hfirst⟩
      · obtain ⟨found, hfound, hfoundAccepts⟩ := ih hlater
        exact ⟨found, List.mem_cons_of_mem _ hfound, hfoundAccepts⟩

theorem not_startsWith_cons {piece : Piece} {rest : List Piece} {c : Char}
    (hleast : 0 < piece.least) (hc : piece.accepts c = false) :
    ¬StartsWith (piece :: rest) (c :: text) := by
  rintro ⟨word, hinitial, hword⟩
  cases hword with
  | @cons _ _ first later haccepts hcount _ =>
      cases first with
      | nil => exact absurd (Piece.admits_iff.1 hcount).1 (Nat.not_le.2 hleast)
      | cons other others =>
          obtain ⟨rfl, _⟩ := List.cons_prefix_cons.1 hinitial
          rw [haccepts other (by simp)] at hc
          cases hc

/-- A pattern that reads up to a separator reads a whole label. -/
theorem startsWith_separated {separator : Char} {label : List Char} {rest : List Piece}
    (hpattern : ∀ piece ∈ pattern, piece.accepts separator = false) (hlabel : separator ∉ label) :
    StartsWith (pattern ++ once (· == separator) :: rest) (label ++ separator :: text) ↔
      Spells pattern label ∧ StartsWith rest text := by
  constructor
  · rintro ⟨word, ⟨behind, hbehind⟩, hword⟩
    obtain ⟨front, back, rfl, hfront, hback⟩ := spells_append.1 hword
    obtain ⟨c, later, rfl, hc, hlater⟩ := spells_once.1 hback
    obtain rfl : c = separator := by simpa using hc
    have hseparator : c ∉ front := by
      intro hmem
      obtain ⟨piece, hpiece, haccepts⟩ := hfront.exists_accepts hmem
      rw [hpattern piece hpiece] at haccepts
      cases haccepts
    rw [List.append_assoc, List.cons_append] at hbehind
    obtain ⟨rfl, rfl⟩ := splitsAt hseparator hlabel hbehind
    exact ⟨hfront, later, List.prefix_append _ _, hlater⟩
  · rintro ⟨hfront, word, hinitial, hword⟩
    refine ⟨label ++ separator :: word, ?_, ?_⟩
    · exact (List.prefix_append_right_inj label).2 ((List.prefix_cons_inj separator).2 hinitial)
    · exact spells_append.2 ⟨label, _, rfl, hfront, spells_once.2 ⟨_, _, rfl, by simp, hword⟩⟩

/-! ## Replaced texts have no match -/

theorem clean_iff_tails :
    Clean pattern text ↔ ∀ suffix ∈ text.tails, ¬StartsWith pattern suffix := by
  simp only [Clean, List.mem_tails]

instance : Decidable (Clean pattern text) := decidable_of_iff _ clean_iff_tails.symm

theorem clean_of_suffix {suffix : List Char} (hclean : Clean pattern text)
    (hsuffix : suffix <:+ text) : Clean pattern suffix :=
  fun later hlater => hclean later (hlater.trans hsuffix)

theorem clean_cons {c : Char} :
    Clean pattern (c :: text) ↔ ¬StartsWith pattern (c :: text) ∧ Clean pattern text := by
  simp [Clean, List.suffix_cons_iff, or_imp, forall_and]

/-- A text without the first character of the words has none of them. -/
theorem clean_of_not_mem {c : Char} {rest : List Piece} (hc : c ∉ text) :
    Clean (once (· == c) :: rest) text := by
  rintro suffix hsuffix ⟨word, hinitial, hword⟩
  obtain ⟨first, later, rfl, hfirst, -⟩ := spells_once.1 hword
  obtain rfl : first = c := by simpa using hfirst
  exact hc (hsuffix.subset (hinitial.subset List.mem_cons_self))

theorem spells_literal {shared : List Char} :
    Spells (shared.map fun c => once (· == c)) word ↔ word = shared := by
  induction shared generalizing word with
  | nil => exact spells_nil
  | cons c rest ih =>
      rw [List.map_cons, spells_once]
      constructor
      · rintro ⟨other, later, rfl, hother, hlater⟩
        rw [ih.1 hlater, show other = c by simpa using hother]
      · rintro rfl
        exact ⟨c, rest, rfl, by simp, ih.2 rfl⟩

theorem prefix_of_startsWith_literal {shared : String}
    (hstarts : StartsWith (literal shared ++ pattern) text) : shared.toList <+: text := by
  obtain ⟨word, hinitial, hword⟩ := hstarts
  obtain ⟨front, back, rfl, hfront, _⟩ := spells_append.1 hword
  rw [spells_literal.1 hfront] at hinitial
  exact (List.prefix_append _ _).trans hinitial

theorem spells_nil_word (hempty : Spells pattern []) : ∀ piece ∈ pattern, piece.least = 0 := by
  generalize hword : ([] : List Char) = word at hempty
  induction hempty with
  | nil => simp
  | @cons piece rest first later _ hcount _ ih =>
      obtain ⟨rfl, rfl⟩ := List.append_eq_nil_iff.1 hword.symm
      intro other hother
      rcases List.mem_cons.1 hother with rfl | hrest
      · exact Nat.le_zero.1 (Piece.admits_iff.1 hcount).1
      · exact ih rfl other hrest

theorem Spells.mayEnd {c : Char} (hword : Spells pattern (word ++ [c])) :
    mayEnd pattern c = true := by
  generalize hwhole : word ++ [c] = whole at hword
  induction hword generalizing word with
  | nil => simp at hwhole
  | @cons piece rest first later haccepts hcount hlater ih =>
      rw [TextPatterns.mayEnd, Bool.or_eq_true]
      rcases later.eq_nil_or_concat with rfl | ⟨front, last, rfl⟩
      · right
        rw [List.append_nil] at hwhole
        rw [Bool.and_eq_true, List.all_eq_true]
        refine ⟨haccepts c (by simp [← hwhole]), fun other hother => ?_⟩
        rw [spells_nil_word hlater other hother, beq_self_eq_true]
      · left
        rw [List.concat_eq_append, ← List.append_assoc] at hwhole
        obtain ⟨_, hlast⟩ := List.append_inj' hwhole rfl
        exact ih (by rw [List.concat_eq_append, ← hlast])

theorem Spells.not_mem (hword : Spells pattern word) {c : Char} (hc : foreign pattern c = true) :
    c ∉ word := by
  intro hmem
  obtain ⟨piece, hpiece, haccepts⟩ := hword.exists_accepts hmem
  have hrejects := List.all_eq_true.1 hc piece hpiece
  rw [haccepts] at hrejects
  cases hrejects

section Masks

variable {mask : Mask} {hidden : List Piece} {front : List Char}

instance : Decidable (mask.Hides pattern) := by
  unfold Mask.Hides
  infer_instance

/-- The end of a word that stands at a mask stands in the start that is shared. -/
theorem Mask.Hides.prefix_shared {later : List Char} (hmask : mask.Hides hidden)
    (hword : Spells hidden (front ++ word)) (hinitial : word <+: mask.text ++ later) :
    word <+: mask.shared := by
  obtain ⟨hgap, hmarks, -, -⟩ := hmask
  obtain ⟨mark, hhead, hforeign⟩ := (Option.any_eq_true _ _).1 hmarks
  obtain ⟨others, hothers⟩ := List.head?_eq_some_iff.1 hhead
  have hmark : mark ∉ front ++ word := hword.not_mem hforeign
  rw [Mask.text, hothers, List.append_assoc, List.append_assoc, List.cons_append] at hinitial
  rcases List.prefix_or_prefix_of_prefix hinitial (List.prefix_append _ _) with
    hinside | ⟨ending, rfl⟩
  · exact hinside
  · rw [List.prefix_append_right_inj] at hinitial
    have hinGap : ending <+: mask.gap := by
      rcases List.prefix_or_prefix_of_prefix hinitial (List.prefix_append _ _) with
        hinside | ⟨beyond, rfl⟩
      · exact hinside
      · rw [List.prefix_append_right_inj] at hinitial
        cases beyond with
        | nil => simp
        | cons c more =>
            obtain ⟨rfl, -⟩ := List.cons_prefix_cons.1 hinitial
            exact absurd (by simp) hmark
    rcases ending.eq_nil_or_concat with rfl | ⟨start, last, rfl⟩
    · simp
    · rw [List.concat_eq_append] at hinGap hword
      rw [← List.append_assoc, ← List.append_assoc] at hword
      have hend := List.any_eq_false.mp hgap last (hinGap.subset (by simp))
      exact absurd hword.mayEnd hend

variable (hshared : ∀ text, StartsWith pattern text → mask.shared <+: text)
include hshared

/-- What ends a word and stands at the start of a replaced text stands there in the text. -/
theorem prefix_of_prefix_replaceAll (hmask : mask.Hides hidden)
    (hword : Spells hidden (front ++ word))
    (hinitial : word <+: replaceAll pattern mask.text text) :
    word <+: text := by
  induction text generalizing front word with
  | nil => exact hinitial
  | cons c rest ih =>
      rw [replaceAll, replaceFrom] at hinitial
      cases hmatch : matchLength pattern (c :: rest) with
      | some length =>
          rw [hmatch] at hinitial
          exact (hmask.prefix_shared hword hinitial).trans
            (hshared _ (startsWith_iff.2 (by rw [hmatch]; rfl)))
      | none =>
          rw [hmatch] at hinitial
          cases word with
          | nil => exact List.nil_prefix
          | cons first more =>
              obtain ⟨rfl, hmore⟩ := List.cons_prefix_cons.1 hinitial
              rw [List.append_cons] at hword
              exact (List.prefix_cons_inj first).2 (ih hword hmore)

omit hshared in
/-- No word stands across the end of a mask. -/
theorem Mask.Hides.clean_append (hmask : mask.Hides hidden) (hclean : Clean hidden text) :
    Clean hidden (mask.text ++ text) := by
  obtain ⟨-, -, hmarks, hcleanMask⟩ := hmask
  obtain ⟨mark, hlast, hforeign⟩ := (Option.any_eq_true _ _).1 hmarks
  obtain ⟨start, hstart⟩ := List.getLast?_eq_some_iff.1 hlast
  rintro suffix ⟨before, hsuffix⟩ ⟨word, hinitial, hword⟩
  rcases List.append_eq_append_iff.1 hsuffix with ⟨inside, hinside, rfl⟩ | ⟨behind, -, rfl⟩
  · rcases List.prefix_or_prefix_of_prefix hinitial (List.prefix_append inside text) with
      hwithin | hover
    · exact hcleanMask inside ⟨before, hinside.symm⟩ ⟨word, hwithin, hword⟩
    · rcases inside.eq_nil_or_concat with rfl | ⟨first, last, rfl⟩
      · exact hclean text (List.suffix_refl text) ⟨word, hinitial, hword⟩
      · rw [Mask.text, hstart, List.concat_eq_append, ← List.append_assoc, ← List.append_assoc,
          ← List.append_assoc] at hinside
        obtain ⟨-, hmark⟩ := List.append_inj' hinside rfl
        obtain rfl : mark = last := List.singleton_inj.1 hmark
        exact hword.not_mem hforeign (hover.subset (by simp))
  · exact hclean suffix (List.suffix_append _ _) ⟨word, hinitial, hword⟩

/-- A pattern has no match in a replaced text when it had none outside the replaced ones. -/
theorem clean_replaceAll (hmask : mask.Hides hidden)
    (hothers : ∀ suffix, suffix <:+ text → StartsWith hidden suffix → StartsWith pattern suffix) :
    Clean hidden (replaceAll pattern mask.text text) := by
  have hfrom : ∀ skipped, Clean hidden (replaceFrom pattern mask.text skipped text) := by
    induction text with
    | nil =>
        intro skipped
        rw [replaceFrom]
        exact clean_of_suffix hmask.2.2.2 (List.nil_suffix)
    | cons c rest ih =>
        have hrest := ih fun suffix hsuffix =>
          hothers suffix (hsuffix.trans (List.suffix_cons c rest))
        intro skipped
        cases skipped with
        | succ skipped => exact hrest skipped
        | zero =>
            rw [replaceFrom]
            cases hmatch : matchLength pattern (c :: rest) with
            | some length => exact hmask.clean_append (hrest (length - 1))
            | none =>
                refine clean_cons.2 ⟨?_, hrest 0⟩
                rintro ⟨word, hinitial, hword⟩
                have hkept : replaceAll pattern mask.text (c :: rest) =
                    c :: replaceFrom pattern mask.text 0 rest := by
                  rw [replaceAll, replaceFrom, hmatch]
                have hend : Spells hidden ([] ++ word) := hword
                have hstands : word <+: c :: rest :=
                  prefix_of_prefix_replaceAll hshared hmask hend (hkept ▸ hinitial)
                have hpattern := startsWith_iff.1
                  (hothers _ (List.suffix_refl _) ⟨word, hstands, hword⟩)
                rw [hmatch] at hpattern
                cases hpattern
  exact hfrom 0

end Masks

end StellarSettle.TextPatterns
