import Mathlib.Data.List.Infix

/-!
# Regular expressions

Regular expressions over any kind of symbols, searched the way backtracking engines search: the
leftmost match, and of the matches there the first one in the order in which the alternatives are
tried.  A star is greedy, and repeats one class of symbols.

* `Regex.Matches` is the language of an expression.
* `Regex.rests` lists what is left of a text after each match at its start, the preferred one first;
  `Regex.mem_rests` says that these are the words of the language.
* `Regex.found` searches, and `Regex.replaceAll` puts a marker in the place of every match.

A symbol that no class of an expression has is a wall (`Regex.avoids`): no match goes across it, and
what is on either side of it is searched and replaced on its own (`Regex.found_wall`,
`Regex.replaceAll_wall`).
-/

set_option autoImplicit false

/-- A regular expression. -/
inductive Regex (α : Type) where
  | eps
  | sym (p : α → Bool)
  | cat (r s : Regex α)
  | alt (r s : Regex α)
  | star (p : α → Bool)

namespace Regex

variable {α : Type}

/-! ## Repetitions -/

/-- `r{n}` -/
def times (r : Regex α) : Nat → Regex α
  | 0 => eps
  | n + 1 => cat r (r.times n)

/-- `r{0,n}` -/
def upTo (r : Regex α) : Nat → Regex α
  | 0 => eps
  | n + 1 => alt (cat r (r.upTo n)) eps

/-- `p{n,}`, of a class -/
def atLeast (p : α → Bool) (n : Nat) : Regex α := cat ((sym p).times n) (star p)

/-- `r?` -/
def opt (r : Regex α) : Regex α := r.upTo 1

/-! ## The language -/

/-- A word of the language. -/
def Matches : Regex α → List α → Prop
  | eps, w => w = []
  | sym p, w => ∃ a, w = [a] ∧ p a = true
  | cat r s, w => ∃ u v, w = u ++ v ∧ r.Matches u ∧ s.Matches v
  | alt r s, w => r.Matches w ∨ s.Matches w
  | star p, w => ∀ a ∈ w, p a = true

/-- The symbol is in no class of the expression. -/
def avoids (c : α) : Regex α → Bool
  | eps => true
  | sym p => !p c
  | cat r s => r.avoids c && s.avoids c
  | alt r s => r.avoids c && s.avoids c
  | star p => !p c

theorem Matches.not_mem {r : Regex α} {c : α} {w : List α} (hc : r.avoids c = true)
    (h : r.Matches w) : c ∉ w := by
  induction r generalizing w with
  | eps =>
    rw [Matches] at h
    simp [h]
  | sym p =>
    obtain ⟨a, rfl, ha⟩ := h
    rw [List.mem_singleton]
    rintro rfl
    simp [avoids, ha] at hc
  | cat r s ihr ihs =>
    obtain ⟨u, v, rfl, hu, hv⟩ := h
    rw [avoids, Bool.and_eq_true] at hc
    rw [List.mem_append]
    rintro (hmem | hmem)
    · exact ihr hc.1 hu hmem
    · exact ihs hc.2 hv hmem
  | alt r s ihr ihs =>
    rw [avoids, Bool.and_eq_true] at hc
    rcases h with h | h
    · exact ihr hc.1 h
    · exact ihs hc.2 h
  | star p =>
    intro hmem
    simp [avoids, h c hmem] at hc

/-! ## Matches at the start of a text -/

/-- What a greedy star leaves. -/
def starRests (p : α → Bool) : List α → List (List α)
  | [] => [[]]
  | a :: s => (if p a then starRests p s else []) ++ [a :: s]

/-- What is left of a text after a match at its start, the preferred match first. -/
def rests : Regex α → List α → List (List α)
  | eps, s => [s]
  | sym _, [] => []
  | sym p, a :: s => if p a then [s] else []
  | cat r r', s => (r.rests s).flatMap r'.rests
  | alt r r', s => r.rests s ++ r'.rests s
  | star p, s => starRests p s

theorem mem_starRests {p : α → Bool} {s rest : List α} :
    rest ∈ starRests p s ↔ ∃ w, (∀ a ∈ w, p a = true) ∧ w ++ rest = s := by
  induction s with
  | nil =>
    rw [starRests, List.mem_singleton]
    constructor
    · rintro rfl
      exact ⟨[], by simp, rfl⟩
    · rintro ⟨w, -, h⟩
      exact (List.append_eq_nil_iff.mp h).2
  | cons a s ih =>
    rw [starRests, List.mem_append, List.mem_singleton]
    constructor
    · rintro (h | rfl)
      · split at h
        · rename_i ha
          obtain ⟨w, hw, rfl⟩ := ih.mp h
          exact ⟨a :: w, List.forall_mem_cons.mpr ⟨ha, hw⟩, rfl⟩
        · cases h
      · exact ⟨[], by simp, rfl⟩
    · rintro ⟨w, hw, h⟩
      cases w with
      | nil => exact .inr h
      | cons b w =>
        obtain ⟨rfl, rfl⟩ := List.cons.inj h
        obtain ⟨hb, hw⟩ := List.forall_mem_cons.mp hw
        rw [if_pos hb]
        exact .inl (ih.mpr ⟨w, hw, rfl⟩)

/-- **The matches at the start of a text are the words of the language it starts with.** -/
theorem mem_rests {r : Regex α} {s rest : List α} :
    rest ∈ r.rests s ↔ ∃ w, r.Matches w ∧ w ++ rest = s := by
  induction r generalizing s rest with
  | eps => simp [rests, Matches]
  | sym p =>
    cases s with
    | nil => simp [rests, Matches]
    | cons a s =>
      rw [rests]
      constructor
      · intro h
        split at h
        · rename_i ha
          rw [List.mem_singleton] at h
          subst h
          exact ⟨[a], ⟨a, rfl, ha⟩, rfl⟩
        · cases h
      · rintro ⟨w, ⟨b, rfl, hb⟩, h⟩
        obtain ⟨rfl, rfl⟩ := List.cons.inj h
        rw [if_pos hb]
        exact List.mem_singleton_self _
  | cat r r' ihr ihr' =>
    rw [rests, List.mem_flatMap]
    constructor
    · rintro ⟨mid, hmid, hrest⟩
      obtain ⟨u, hu, rfl⟩ := ihr.mp hmid
      obtain ⟨v, hv, rfl⟩ := ihr'.mp hrest
      exact ⟨u ++ v, ⟨u, v, rfl, hu, hv⟩, List.append_assoc ..⟩
    · rintro ⟨w, ⟨u, v, rfl, hu, hv⟩, rfl⟩
      exact ⟨v ++ rest, ihr.mpr ⟨u, hu, (List.append_assoc ..).symm⟩, ihr'.mpr ⟨v, hv, rfl⟩⟩
  | alt r r' ihr ihr' =>
    rw [rests, List.mem_append, ihr, ihr']
    constructor
    · rintro (⟨w, hw, h⟩ | ⟨w, hw, h⟩)
      · exact ⟨w, .inl hw, h⟩
      · exact ⟨w, .inr hw, h⟩
    · rintro ⟨w, hw | hw, h⟩
      · exact .inl ⟨w, hw, h⟩
      · exact .inr ⟨w, hw, h⟩
  | star p => exact mem_starRests

/-! ## Walls -/

theorem starRests_wall {p : α → Bool} {c : α} (hc : p c = false) (s t : List α) :
    starRests p (s ++ c :: t) = (starRests p s).map (· ++ c :: t) := by
  induction s with
  | nil => simp [starRests, hc]
  | cons a s ih =>
    rw [List.cons_append, starRests, starRests, ih]
    split <;> simp

/-- Behind a wall the text may be anything. -/
theorem rests_wall {r : Regex α} {c : α} (hc : r.avoids c = true) (s t : List α) :
    r.rests (s ++ c :: t) = (r.rests s).map (· ++ c :: t) := by
  induction r generalizing s with
  | eps => rfl
  | sym p =>
    cases s with
    | nil =>
      have hp : p c = false := by simpa [avoids] using hc
      simp [rests, hp]
    | cons a s =>
      rw [List.cons_append, rests, rests]
      split <;> rfl
  | cat r r' ihr ihr' =>
    rw [avoids, Bool.and_eq_true] at hc
    rw [rests, rests, ihr hc.1, List.flatMap_map, List.map_flatMap]
    exact List.flatMap_congr fun rest _ ↦ ihr' hc.2 rest
  | alt r r' ihr ihr' =>
    rw [avoids, Bool.and_eq_true] at hc
    rw [rests, rests, ihr hc.1, ihr' hc.2, List.map_append]
  | star p =>
    have hp : p c = false := by simpa [avoids] using hc
    exact starRests_wall hp s t

/-! ## Searching -/

/-- The expression matches somewhere in the text. -/
def found (r : Regex α) (s : List α) : Bool := s.tails.any fun t ↦ (r.rests t).head?.isSome

theorem found_iff {r : Regex α} {s : List α} :
    r.found s = true ↔ ∃ u w v, u ++ w ++ v = s ∧ r.Matches w := by
  rw [found, List.any_eq_true]
  constructor
  · rintro ⟨t, ht, hsome⟩
    obtain ⟨u, rfl⟩ := (List.mem_tails _ _).mp ht
    obtain ⟨rest, hrest⟩ := Option.isSome_iff_exists.mp hsome
    obtain ⟨w, hw, rfl⟩ := mem_rests.mp (List.mem_of_head? hrest)
    exact ⟨u, w, rest, List.append_assoc .., hw⟩
  · rintro ⟨u, w, v, rfl, hw⟩
    refine ⟨w ++ v, (List.mem_tails _ _).mpr ⟨u, (List.append_assoc ..).symm⟩, ?_⟩
    rw [List.isSome_head?]
    exact List.ne_nil_of_mem (mem_rests.mpr ⟨w, hw, rfl⟩)

/-! ## Replacing -/

/-- Every match is replaced, after `skip` symbols that have been matched already. -/
def replaceFrom (r : Regex α) (marker : List α) : Nat → List α → List α
  | _, [] => []
  | skip + 1, _ :: s => replaceFrom r marker skip s
  | 0, a :: s =>
    match (r.rests (a :: s)).head? with
    | some rest => marker ++ replaceFrom r marker (s.length - rest.length) s
    | none => a :: replaceFrom r marker 0 s

/-- Every match is replaced, for an expression that does not match the empty word. -/
def replaceAll (r : Regex α) (marker s : List α) : List α := replaceFrom r marker 0 s

section Replace

variable {r : Regex α} {marker s : List α} {a : α}

theorem replaceFrom_eq_drop (skip : Nat) (s : List α) :
    r.replaceFrom marker skip s = r.replaceAll marker (s.drop skip) := by
  induction skip generalizing s with
  | zero => rfl
  | succ skip ih =>
    cases s with
    | nil => rfl
    | cons a s => exact ih s

theorem replaceAll_of_none (h : (r.rests (a :: s)).head? = none) :
    r.replaceAll marker (a :: s) = a :: r.replaceAll marker s := by
  rw [replaceAll, replaceFrom, h]
  rfl

theorem replaceAll_of_some {w rest : List α} (h : (r.rests (a :: s)).head? = some rest)
    (hw : w ++ rest = a :: s) (hne : w ≠ []) :
    r.replaceAll marker (a :: s) = marker ++ r.replaceAll marker rest := by
  rw [replaceAll, replaceFrom, h]
  cases w with
  | nil => exact absurd rfl hne
  | cons b w =>
    obtain ⟨rfl, rfl⟩ := List.cons.inj hw
    show marker ++ replaceFrom r marker ((w ++ rest).length - rest.length) (w ++ rest) = _
    rw [replaceFrom_eq_drop, List.length_append, Nat.add_sub_cancel, List.drop_left]

/-- **Walls are left standing**: what is in front of one and what is behind it are replaced on their
own. -/
theorem replaceAll_wall {c : α} (hne : ¬r.Matches []) (hc : r.avoids c = true) (s t : List α) :
    r.replaceAll marker (s ++ c :: t) = r.replaceAll marker s ++ c :: r.replaceAll marker t := by
  induction hlen : s.length using Nat.strong_induction_on generalizing s with
  | _ n ih =>
    subst hlen
    cases s with
    | nil =>
      have hnone : (r.rests (c :: t)).head? = none := by
        have hwall := rests_wall hc [] t
        rw [List.nil_append] at hwall
        have hnil : r.rests [] = [] := by
          refine List.eq_nil_iff_forall_not_mem.mpr fun rest hrest ↦ ?_
          obtain ⟨w, hw, h⟩ := mem_rests.mp hrest
          rw [(List.append_eq_nil_iff.mp h).1] at hw
          exact hne hw
        rw [hwall, hnil]
        rfl
      rw [List.nil_append, replaceAll_of_none hnone]
      rfl
    | cons a s =>
      have hwall : (r.rests (a :: (s ++ c :: t))).head? =
          ((r.rests (a :: s)).head?).map (· ++ c :: t) := by
        rw [← List.cons_append, rests_wall hc, List.head?_map]
      rw [List.cons_append]
      cases h : (r.rests (a :: s)).head? with
      | none =>
        rw [h] at hwall
        rw [replaceAll_of_none hwall, replaceAll_of_none h, ih s.length (by simp) s rfl]
        rfl
      | some rest =>
        rw [h] at hwall
        obtain ⟨w, hw, hrest⟩ := mem_rests.mp (List.mem_of_head? h)
        have hw' : w ≠ [] := fun hnil ↦ hne (hnil ▸ hw)
        have hrest' : w ++ (rest ++ c :: t) = a :: (s ++ c :: t) := by
          rw [← List.append_assoc, hrest]
          rfl
        have hlt : rest.length < (a :: s).length := by
          have := List.length_pos_iff.mpr hw'
          rw [← hrest, List.length_append]
          omega
        rw [replaceAll_of_some hwall hrest' hw', replaceAll_of_some h hrest hw', ih _ hlt rest rfl,
          List.append_assoc]

theorem replaceAll_of_not_found (h : r.found s = false) : r.replaceAll marker s = s := by
  induction s with
  | nil => rfl
  | cons a s ih =>
    rw [found, List.tails_cons, List.any_cons, Bool.or_eq_false_iff] at h
    rw [replaceAll_of_none (Option.isSome_eq_false_iff.mp h.1 |> Option.isNone_iff_eq_none.mp),
      ih h.2]

theorem found_wall {c : α} (hne : ¬r.Matches []) (hc : r.avoids c = true) (s t : List α) :
    r.found (s ++ c :: t) = (r.found s || r.found t) := by
  rw [Bool.eq_iff_iff, Bool.or_eq_true, found_iff, found_iff, found_iff]
  constructor
  · rintro ⟨u, w, v, h, hw⟩
    have hmem : c ∉ w := hw.not_mem hc
    rw [List.append_assoc, List.append_eq_append_iff] at h
    rcases h with ⟨m, rfl, h⟩ | ⟨m, rfl, h⟩
    · -- The match starts in front of the wall.
      rcases List.append_eq_append_iff.mp h with ⟨m', rfl, -⟩ | ⟨m', rfl, hrest⟩
      · exact .inl ⟨u, w, m', by simp, hw⟩
      · cases m' with
        | nil => exact .inl ⟨u, _, [], by simp, hw⟩
        | cons b m' =>
          obtain ⟨rfl, -⟩ := List.cons.inj hrest
          simp at hmem
    · -- The match starts at the wall or behind it.
      cases m with
      | nil =>
        cases w with
        | nil => exact absurd hw hne
        | cons b w =>
          obtain ⟨rfl, -⟩ := List.cons.inj h
          simp at hmem
      | cons b m =>
        obtain ⟨-, rfl⟩ := List.cons.inj h
        exact .inr ⟨m, w, v, List.append_assoc .., hw⟩
  · rintro (⟨u, w, v, rfl, hw⟩ | ⟨u, w, v, rfl, hw⟩)
    · exact ⟨u, w, v ++ c :: t, by simp, hw⟩
    · exact ⟨s ++ c :: u, w, v, by simp, hw⟩

end Replace

end Regex
