/-
**The pruned walk over a sorted list of patterns.**

A pattern is a word, read either exactly (it covers only itself) or as an open pattern (it covers
every word it starts). A list of patterns, sorted by word, is walked against one subject word; the
walk stops at the first pattern that shares fewer leading letters with the subject than the pattern
before it did.

* `commonLen_mono`: below the subject, the number of shared leading letters does not decrease along
  a sorted list.
* `coversAll_iff`: whether the patterns cover every continuation of a word can be decided.
-/

import Mathlib.Algebra.Order.Ring.Int
import Mathlib.Data.List.Lex
import Mathlib.Order.Basic

namespace Ubus.Lib

variable {α : Type} [LinearOrder α]

/-! ### Shared leading letters -/

/-- The number of leading letters two words share. -/
def commonLen : List α → List α → Nat
  | a :: first, b :: second => if a = b then commonLen first second + 1 else 0
  | _, _ => 0

theorem commonLen_nil_right (word : List α) : commonLen word [] = 0 := by
  cases word <;> rfl

theorem commonLen_eq_length_iff (subject word : List α) :
    commonLen subject word = word.length ↔ word <+: subject := by
  induction word generalizing subject with
  | nil => simp [commonLen_nil_right]
  | cons b word ih =>
    cases subject with
    | nil => simp [commonLen]
    | cons a subject =>
      by_cases same : a = b
      · subst same
        simp [commonLen, ih, List.cons_prefix_cons]
      · have other : ¬ b = a := fun equal => same equal.symm
        simp [commonLen, same, other, List.cons_prefix_cons]

theorem cons_le_cons_head {a b : α} {first second : List α} (le : a :: first ≤ b :: second) :
    a ≤ b := by
  rcases le.lt_or_eq with lt | same
  · exact List.head_le_of_lt lt
  · exact le_of_eq (List.cons.inj same).1

theorem cons_le_cons_tail {a : α} {first second : List α} (le : a :: first ≤ a :: second) :
    first ≤ second := by
  by_contra above
  have strict : a :: second < a :: first := List.Lex.cons (not_le.mp above)
  exact absurd le (not_le.mpr strict)

/-- **Below the subject the shared letters grow.** Of two words in order, both at most the subject,
the later one shares at least as many leading letters with it. -/
theorem commonLen_mono {subject : List α} :
    ∀ {first second : List α}, first ≤ second → second ≤ subject →
      commonLen subject first ≤ commonLen subject second := by
  induction subject with
  | nil =>
    intro first second _ _
    simp [commonLen]
  | cons a subject ih =>
    intro first second low high
    cases first with
    | nil => simp [commonLen_nil_right]
    | cons b first =>
      cases second with
      | nil => exact absurd low (not_le.mpr List.Lex.nil)
      | cons c second =>
        by_cases hit : a = b
        · subst hit
          have same : c = a :=
            le_antisymm (cons_le_cons_head high) (cons_le_cons_head low)
          subst same
          have rest := ih (cons_le_cons_tail low) (cons_le_cons_tail high)
          simpa [commonLen] using rest
        · simp [commonLen, hit]

theorem le_of_isPrefix {word subject : List α} (starts : word <+: subject) : word ≤ subject := by
  induction word generalizing subject with
  | nil =>
    cases subject with
    | nil => exact le_rfl
    | cons a subject => exact le_of_lt List.Lex.nil
  | cons b word ih =>
    cases subject with
    | nil => simp at starts
    | cons a subject =>
      obtain ⟨same, rest⟩ := List.cons_prefix_cons.mp starts
      subst same
      exact List.cons_le_cons b (ih rest)

/-! ### The range of a word -/

theorem isPrefix_of_between {word first second : List α} (low : word ≤ first) (high : first ≤ second)
    (starts : word <+: second) : word <+: first := by
  induction word generalizing first second with
  | nil => exact List.nil_prefix
  | cons a word ih =>
    cases second with
    | nil => simp at starts
    | cons b second =>
      obtain ⟨same, rest⟩ := List.cons_prefix_cons.mp starts
      subst same
      cases first with
      | nil => exact absurd low (not_le.mpr List.Lex.nil)
      | cons c first =>
        have equal : c = a := le_antisymm (cons_le_cons_head high) (cons_le_cons_head low)
        subst equal
        exact List.cons_prefix_cons.mpr
          ⟨rfl, ih (cons_le_cons_tail low) (cons_le_cons_tail high) rest⟩

section Range

variable {ι : Type} (key : ι → List α) (word : List α)

theorem takeWhile_eq_filter {entries : List ι} (sorted : entries.Pairwise (key · ≤ key ·))
    (above : ∀ entry ∈ entries, word ≤ key entry) :
    entries.takeWhile (fun entry => word.isPrefixOf (key entry)) =
      entries.filter fun entry => word.isPrefixOf (key entry) := by
  induction entries with
  | nil => rfl
  | cons entry rest ih =>
    obtain ⟨headLe, tailSorted⟩ := List.pairwise_cons.mp sorted
    by_cases starts : word.isPrefixOf (key entry)
    · simp only [List.takeWhile_cons, List.filter_cons, starts, if_true]
      rw [ih tailSorted fun other member => above other (List.mem_cons_of_mem _ member)]
    simp only [List.takeWhile_cons, List.filter_cons, starts, if_false, Bool.false_eq_true]
    refine (List.filter_eq_nil_iff.mpr ?_).symm
    intro other member starts'
    exact starts (List.isPrefixOf_iff_prefix.mpr (isPrefix_of_between
      (above entry List.mem_cons_self) (headLe other member)
      (List.isPrefixOf_iff_prefix.mp starts')))

/-- **The range of a word** in a sorted list holds the entries whose words start with it. -/
theorem range_eq_filter {entries : List ι} (sorted : entries.Pairwise (key · ≤ key ·)) :
    (entries.dropWhile fun entry => key entry < word).takeWhile
        (fun entry => word.isPrefixOf (key entry)) =
      entries.filter fun entry => word.isPrefixOf (key entry) := by
  induction entries with
  | nil => rfl
  | cons entry rest ih =>
    by_cases below : key entry < word
    · have out : ¬ word.isPrefixOf (key entry) = true := fun starts =>
        absurd (le_of_isPrefix (List.isPrefixOf_iff_prefix.mp starts)) (not_le.mpr below)
      simp only [List.dropWhile_cons, List.filter_cons, below, out, decide_true, if_true, if_false,
        Bool.false_eq_true]
      exact ih (List.pairwise_cons.mp sorted).2
    · simp only [List.dropWhile_cons, below, decide_false, if_false, Bool.false_eq_true]
      refine takeWhile_eq_filter key word sorted fun other member => ?_
      rcases List.mem_cons.mp member with rfl | member
      · exact not_lt.mp below
      · exact (not_lt.mp below).trans ((List.pairwise_cons.mp sorted).1 other member)

end Range

/-! ### The walk -/

section Walk

variable {ι σ : Type}

/-- A pattern covers a subject: it is the subject, or it is open and starts the subject. -/
def Covers (word : List α) (isOpen : Bool) (subject : List α) : Prop :=
  word = subject ∨ (isOpen = true ∧ word <+: subject)

instance (word : List α) (isOpen : Bool) (subject : List α) :
    Decidable (Covers word isOpen subject) :=
  inferInstanceAs (Decidable (_ ∨ _))

theorem Covers.le {word subject : List α} {isOpen : Bool} (covers : Covers word isOpen subject) :
    word ≤ subject := by
  rcases covers with same | ⟨_, starts⟩
  · exact le_of_eq same
  · exact le_of_isPrefix starts

/-- Run a body over a list until it asks to stop. -/
def foldStop (body : ι → σ → σ × Bool) : List ι → σ → σ
  | [], acc => acc
  | entry :: rest, acc =>
    if (body entry acc).2 then (body entry acc).1 else foldStop body rest (body entry acc).1

theorem foldStop_eq_foldl (Inv : σ → Prop) {body : ι → σ → σ × Bool} (entries : List ι) {acc : σ}
    (round : ∀ entry acc, Inv acc → (body entry acc).2 = false ∧ Inv (body entry acc).1)
    (start : Inv acc) :
    foldStop body entries acc = entries.foldl (fun acc entry => (body entry acc).1) acc := by
  induction entries generalizing acc with
  | nil => rfl
  | cons entry rest ih =>
    obtain ⟨goesOn, next⟩ := round entry acc start
    rw [foldStop, goesOn, List.foldl_cons, ← ih next]
    rfl

/-- **The pruned walk.** `strmatch` reports whether the subject and a word are equal and how many
leading letters they share; `matchLen` is the number shared with the last pattern looked at. -/
def prunedWalk (strmatch : List α → List α → Bool × Nat) (key : ι → List α)
    (isOpen skip : ι → Bool) (subject : List α) (body : ι → σ → σ × Bool) :
    Nat → List ι → σ → σ
  | _, [], acc => acc
  | matchLen, entry :: rest, acc =>
    if skip entry then prunedWalk strmatch key isOpen skip subject body matchLen rest acc
    else
      let (fullMatch, curMatchLen) := strmatch subject (key entry)
      if curMatchLen < matchLen then acc
      else if !fullMatch && (!isOpen entry || curMatchLen != (key entry).length) then
        prunedWalk strmatch key isOpen skip subject body curMatchLen rest acc
      else if (body entry acc).2 then (body entry acc).1
      else prunedWalk strmatch key isOpen skip subject body curMatchLen rest (body entry acc).1

variable {strmatch : List α → List α → Bool × Nat} {key : ι → List α} {isOpen skip : ι → Bool}
  {subject : List α} {body : ι → σ → σ × Bool}

/-- The patterns the walk is meant to visit. -/
def visits (key : ι → List α) (isOpen skip : ι → Bool) (subject : List α) (entry : ι) : Bool :=
  !skip entry && decide (Covers (key entry) (isOpen entry) subject)

theorem filter_visits_eq_nil {entries : List ι} (past : ∀ entry ∈ entries, subject < key entry) :
    entries.filter (visits key isOpen skip subject) = [] := by
  rw [List.filter_eq_nil_iff]
  intro entry member visited
  have covers : Covers (key entry) (isOpen entry) subject := by
    simp only [visits, Bool.and_eq_true, decide_eq_true_eq] at visited
    exact visited.2
  exact absurd (past entry member) (not_lt.mpr covers.le)

theorem covers_iff_test (key : ι → List α) (isOpen : ι → Bool) (subject : List α)
    (spec : ∀ first second, strmatch first second =
      (decide (first = second), commonLen first second)) (entry : ι) :
    (!(strmatch subject (key entry)).1 && (!isOpen entry ||
        (strmatch subject (key entry)).2 != (key entry).length)) = true ↔
      ¬ Covers (key entry) (isOpen entry) subject := by
  rw [spec]
  have starts := commonLen_eq_length_iff subject (key entry)
  by_cases same : subject = key entry
  · simp [Covers, same]
  have other : ¬ key entry = subject := fun equal => same equal.symm
  by_cases whole : isOpen entry = true
  · simp [Covers, same, other, whole, starts]
  · simp [Covers, same, other, whole]

omit [LinearOrder α] in
/-- **The invariant rule for the walk**: what every round keeps holds at the end. -/
theorem prunedWalk_invariant (P : σ → Prop) (entries : List ι)
    (round : ∀ entry ∈ entries, ∀ acc, P acc → P (body entry acc).1) :
    ∀ (matchLen : Nat) (acc : σ), P acc →
      P (prunedWalk strmatch key isOpen skip subject body matchLen entries acc) := by
  induction entries with
  | nil => exact fun _ _ start => start
  | cons entry rest ih =>
    intro matchLen acc start
    have later := ih fun other member => round other (List.mem_cons_of_mem _ member)
    have here := round entry List.mem_cons_self acc start
    unfold prunedWalk
    simp only
    split
    · exact later _ _ start
    split
    · exact start
    split
    · exact later _ _ start
    · split
      · exact here
      · exact later _ _ here

/-- **The early stop hides nothing.** From any point of a sorted list at which every pattern still
ahead and not past the subject shares at least `matchLen` letters with it, the walk is the body run
over exactly the visited patterns. -/
theorem prunedWalk_eq_foldStop_from (spec : ∀ first second, strmatch first second =
      (decide (first = second), commonLen first second)) (entries : List ι)
    (sorted : entries.Pairwise fun first second => key first ≤ key second) :
    ∀ (matchLen : Nat) (acc : σ),
      (∀ entry ∈ entries, skip entry = false → key entry ≤ subject →
        matchLen ≤ commonLen subject (key entry)) →
      prunedWalk strmatch key isOpen skip subject body matchLen entries acc =
        foldStop body (entries.filter (visits key isOpen skip subject)) acc := by
  induction entries with
  | nil =>
    intro matchLen acc _
    rfl
  | cons entry rest ih =>
    intro matchLen acc ahead
    obtain ⟨headLe, tailSorted⟩ := List.pairwise_cons.mp sorted
    have restAhead : ∀ other ∈ rest, skip other = false → key other ≤ subject →
        matchLen ≤ commonLen subject (key other) :=
      fun other member => ahead other (List.mem_cons_of_mem _ member)
    by_cases skipped : skip entry = true
    · rw [prunedWalk, if_pos skipped, ih tailSorted matchLen acc restAhead]
      simp [visits, skipped]
    have kept : skip entry = false := by simpa using skipped
    have cur : (strmatch subject (key entry)).2 = commonLen subject (key entry) := by rw [spec]
    -- what is still ahead shares at least as much as this pattern does
    have nextAhead : ∀ other ∈ rest, skip other = false → key other ≤ subject →
        commonLen subject (key entry) ≤ commonLen subject (key other) :=
      fun other member _ low => commonLen_mono (headLe other member) low
    rw [prunedWalk, if_neg skipped]
    simp only [cur]
    by_cases drop : commonLen subject (key entry) < matchLen
    · have past : subject < key entry := by
        by_contra low
        exact absurd (ahead entry List.mem_cons_self kept (not_lt.mp low)) (not_le.mpr drop)
      have allPast : ∀ other ∈ entry :: rest, subject < key other := by
        intro other member
        rcases List.mem_cons.mp member with rfl | member
        · exact past
        · exact lt_of_lt_of_le past (headLe other member)
      rw [if_pos drop, filter_visits_eq_nil allPast]
      rfl
    · rw [if_neg drop]
      have test := covers_iff_test key isOpen subject spec entry
      rw [cur] at test
      by_cases covered : Covers (key entry) (isOpen entry) subject
      · rw [if_neg (fun failed => (test.mp failed) covered)]
        have visited : visits key isOpen skip subject entry = true := by
          simp [visits, kept, covered]
        rw [List.filter_cons_of_pos visited, foldStop]
        split
        · rfl
        · exact ih tailSorted _ _ nextAhead
      · have missed : ¬ visits key isOpen skip subject entry = true := by
          simp [visits, covered]
        rw [if_pos (test.mpr covered), List.filter_cons_of_neg missed]
        exact ih tailSorted _ _ nextAhead

/-- **The pruned walk is exact.** -/
theorem prunedWalk_eq_foldStop (spec : ∀ first second, strmatch first second =
      (decide (first = second), commonLen first second)) (entries : List ι)
    (sorted : entries.Pairwise fun first second => key first ≤ key second) (acc : σ) :
    prunedWalk strmatch key isOpen skip subject body 0 entries acc =
      foldStop body (entries.filter (visits key isOpen skip subject)) acc :=
  prunedWalk_eq_foldStop_from spec entries sorted 0 acc fun _ _ _ _ => Nat.zero_le _

end Walk

/-! ### Everything that a word starts -/

section CoversAll

/-- Some open pattern starts the word. -/
def openStart (entries : List (List α × Bool)) (word : List α) : Bool :=
  entries.any fun entry => entry.2 && decide (entry.1 <+: word)

/-- Every continuation of a word is covered: by an open pattern that starts the word, or letter by
letter, down to a depth. -/
def coversAll (entries : List (List α × Bool)) (letters : List α) : Nat → List α → Bool
  | 0, word => openStart entries word
  | depth + 1, word => openStart entries word ||
      (entries.any fun entry => decide (entry.1 = word)) &&
        letters.all fun letter => coversAll entries letters depth (word ++ [letter])

variable {entries : List (List α × Bool)} {letters : List α}

theorem openStart_iff {word : List α} :
    openStart entries word = true ↔ ∃ entry ∈ entries, entry.2 = true ∧ entry.1 <+: word := by
  simp [openStart]

/-- The letters that continue a word are among the given ones. -/
def Continues (letters word subject : List α) : Prop :=
  ∃ tail, subject = word ++ tail ∧ ∀ letter ∈ tail, letter ∈ letters

theorem continues_of_openStart {word subject : List α} (start : openStart entries word = true)
    (goesOn : Continues letters word subject) :
    ∃ entry ∈ entries, Covers entry.1 entry.2 subject := by
  obtain ⟨entry, member, isOpen, starts⟩ := openStart_iff.mp start
  obtain ⟨tail, rfl, -⟩ := goesOn
  exact ⟨entry, member, Or.inr ⟨isOpen, starts.trans (List.prefix_append _ _)⟩⟩

/-- **Every continuation of a word is covered exactly when `coversAll` says so**, provided the depth
reaches past the longest pattern. -/
theorem coversAll_iff (some' : letters ≠ []) (depth : Nat) (word : List α)
    (reaches : ∀ entry ∈ entries, entry.1.length ≤ word.length + depth) :
    coversAll entries letters depth word = true ↔
      ∀ subject, Continues letters word subject →
        ∃ entry ∈ entries, Covers entry.1 entry.2 subject := by
  induction depth generalizing word with
  | zero =>
    refine ⟨fun start subject => continues_of_openStart start, fun all => ?_⟩
    obtain ⟨letter, rest, rfl⟩ := List.exists_cons_of_ne_nil some'
    obtain ⟨entry, member, covers⟩ := all (word ++ [letter])
      ⟨[letter], rfl, fun other is => (List.mem_singleton.mp is) ▸ List.mem_cons_self⟩
    have short : entry.1.length ≤ word.length := reaches entry member
    rcases covers with same | ⟨isOpen, starts⟩
    · rw [same, List.length_append] at short
      exact absurd short (by simp)
    · exact openStart_iff.mpr ⟨entry, member, isOpen,
        List.prefix_of_prefix_length_le starts (List.prefix_append _ _) short⟩
  | succ depth ih =>
    have below : ∀ letter, ∀ entry ∈ entries,
        entry.1.length ≤ (word ++ [letter]).length + depth := by
      intro letter entry member
      have := reaches entry member
      rw [List.length_append, List.length_singleton]
      omega
    rw [coversAll, Bool.or_eq_true, Bool.and_eq_true, List.any_eq_true, List.all_eq_true]
    constructor
    · rintro (start | ⟨⟨entry, member, exact'⟩, deeper⟩) subject goesOn
      · exact continues_of_openStart start goesOn
      obtain ⟨tail, rfl, inside⟩ := goesOn
      cases tail with
      | nil =>
        rw [List.append_nil]
        exact ⟨entry, member, Or.inl (of_decide_eq_true exact')⟩
      | cons letter tail =>
        have listed := inside letter List.mem_cons_self
        refine (ih _ (below letter)).mp (deeper letter listed) _ ⟨tail, ?_, ?_⟩
        · rw [List.append_assoc]
          rfl
        · exact fun other is => inside other (List.mem_cons_of_mem _ is)
    · intro all
      by_cases start : openStart entries word = true
      · exact Or.inl start
      refine Or.inr ⟨?_, fun letter listed => (ih _ (below letter)).mpr ?_⟩
      · obtain ⟨entry, member, same | ⟨isOpen, starts⟩⟩ := all word
          ⟨[], (List.append_nil _).symm, (nomatch ·, ·)⟩
        · exact ⟨entry, member, decide_eq_true same⟩
        · exact absurd (openStart_iff.mpr ⟨entry, member, isOpen, starts⟩) start
      · rintro subject ⟨tail, rfl, inside⟩
        refine all _ ⟨letter :: tail, ?_, ?_⟩
        · rw [List.append_assoc]
          rfl
        intro other is
        rcases List.mem_cons.mp is with rfl | is
        · exact listed
        · exact inside other is

end CoversAll

end Ubus.Lib
