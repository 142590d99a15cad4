import Voxeltoad.Lib.Rank

/-!
# Pages

A listing that is read page by page.  It answers a cursor with a page and the cursor of the next
one; `Page.follow` follows the cursors until the one comes back that it started from, which stands
for the end.

A keyset listing sorts its rows by a rank without ties.  It fetches one row more than a page has,
and where there is one more, the cursor names the last row of the page; the next page has what ranks
above that row.  `Page.complete_of_keyset` says that nothing is skipped or repeated that way,
however many rows there are.  A listing by offset takes its pages out of the sorted rows
(`Page.flatten_offset`).
-/

set_option autoImplicit false

namespace Page

variable {ρ γ κ : Type}

/-- Follow the cursors from `cursor` on, for at most `n` pages. -/
def follow [DecidableEq γ] (list : γ → Option (List ρ × γ)) (start : γ) :
    Nat → γ → Option (List (List ρ))
  | 0, _ => none
  | n + 1, cursor =>
    match list cursor with
    | none => none
    | some (page, next) =>
      if next = start then some [page] else (follow list start n next).map fun pages ↦ page :: pages

/-- **A listing is complete**: following the cursors comes to an end, the pages are no longer than
`limit`, and together they are `rows`. -/
def Complete [DecidableEq γ] (list : γ → Option (List ρ × γ)) (start : γ) (limit : Nat)
    (rows : List ρ) : Prop :=
  ∃ n pages, follow list start n start = some pages ∧ pages.flatten = rows ∧
    ∀ page ∈ pages, page.length ≤ limit

theorem follow_mono [DecidableEq γ] {list : γ → Option (List ρ × γ)} {start : γ}
    {n m : Nat} (hle : n ≤ m) {cursor : γ} {pages : List (List ρ)}
    (h : follow list start n cursor = some pages) : follow list start m cursor = some pages := by
  induction n generalizing m cursor pages with
  | zero => exact absurd h (by simp [follow])
  | succ n ih =>
    obtain ⟨m, rfl⟩ : ∃ k, m = k + 1 := ⟨m - 1, by omega⟩
    rw [follow] at h ⊢
    rcases hlist : list cursor with _ | ⟨page, next⟩
    · simp [hlist] at h
    · simp only [hlist] at h ⊢
      split at h
      case isTrue hend => rw [if_pos hend, h]
      case isFalse hend =>
        obtain ⟨rest, hrest, hpages⟩ := Option.map_eq_some_iff.mp h
        rw [if_neg hend, ih (by omega) hrest, Option.map_some, hpages]

/-- A listing is complete for one list of rows at most. -/
theorem Complete.unique [DecidableEq γ] {list : γ → Option (List ρ × γ)} {start : γ}
    {limit limit' : Nat} {rows rows' : List ρ} (h : Complete list start limit rows)
    (h' : Complete list start limit' rows') : rows = rows' := by
  obtain ⟨n, pages, hfollow, rfl, -⟩ := h
  obtain ⟨n', pages', hfollow', rfl, -⟩ := h'
  have hmax := follow_mono (Nat.le_max_left n n') hfollow
  rw [follow_mono (Nat.le_max_right n n') hfollow'] at hmax
  rw [Option.some.inj hmax]

/-- What becomes of the rows that were fetched: where there is one more than a page has, the cursor
of the last row of the page comes with it. -/
def lookAhead (encode : ρ → γ) (start : γ) (limit : Nat) (found : List ρ) : List ρ × γ :=
  if limit < found.length then (found.take limit, (found[limit - 1]?.map encode).getD start)
  else (found, start)

theorem lookAhead_map {ρ' : Type} (f : ρ → ρ') (encode : ρ' → γ) (start : γ) (limit : Nat)
    (found : List ρ) : lookAhead encode start limit (found.map f) =
      ((lookAhead (fun r ↦ encode (f r)) start limit found).1.map f,
        (lookAhead (fun r ↦ encode (f r)) start limit found).2) := by
  rw [lookAhead, lookAhead, List.length_map]
  split
  · rw [List.map_take, List.getElem?_map, Option.map_map]
    rfl
  · rfl

/-- A listing of what the rows of another one are turned into. -/
theorem Complete.map [DecidableEq γ] {ρ' : Type} (f : ρ → ρ') {list : γ → Option (List ρ × γ)}
    {list' : γ → Option (List ρ' × γ)} {start : γ} {limit : Nat} {rows : List ρ}
    (hlist : ∀ cursor, list' cursor = (list cursor).map fun answer ↦ (answer.1.map f, answer.2))
    (h : Complete list start limit rows) : Complete list' start limit (rows.map f) := by
  obtain ⟨n, pages, hfollow, rfl, hlength⟩ := h
  refine ⟨n, pages.map (List.map f), ?_, List.map_flatten.symm, ?_⟩
  · have hall : ∀ (n : Nat) (cursor : γ), follow list' start n cursor =
        (follow list start n cursor).map (List.map (List.map f)) := by
      intro n
      induction n with
      | zero => exact fun _ ↦ rfl
      | succ n ih =>
        intro cursor
        rw [follow, follow, hlist]
        rcases list cursor with _ | ⟨page, next⟩
        · rfl
        · simp only [Option.map_some]
          split
          · rfl
          · rw [ih, Option.map_map, Option.map_map]
            rfl
    rw [hall, hfollow]
    rfl
  · intro page hpage
    obtain ⟨page', hpage', rfl⟩ := List.mem_map.mp hpage
    rw [List.length_map]
    exact hlength page' hpage'

section Keyset

variable [LinearOrder κ] [DecidableEq γ] {rank : ρ → κ} {encode : ρ → γ} {start : γ} {limit : Nat}
  {rows : List ρ} {list : γ → Option (List ρ × γ)}

variable (rank encode start limit) in
/-- A page of `rows`. -/
def keyset (rows : List ρ) : List ρ × γ :=
  lookAhead encode start limit ((Rank.sortBy rank rows).take (limit + 1))

/-- Following the cursors from the middle of the rows on. -/
theorem follow_suffix (hlimit : 0 < limit) (hdistinct : Rank.Distinct rank rows)
    (hnext : ∀ r ∈ rows, list (encode r) =
      some (keyset rank encode start limit (rows.filter fun q ↦ rank r < rank q)))
    (hne : ∀ r ∈ rows, encode r ≠ start) {n : Nat} {before rest : List ρ}
    (hrows : Rank.sortBy rank rows = before ++ rest) (hn : rest.length < n) {cursor : γ}
    (hcursor : list cursor = some (lookAhead encode start limit (rest.take (limit + 1)))) :
    ∃ pages, follow list start n cursor = some pages ∧ pages.flatten = rest ∧
      ∀ page ∈ pages, page.length ≤ limit := by
  induction n generalizing before rest cursor with
  | zero => exact absurd hn (Nat.not_lt_zero _)
  | succ n ih =>
    rw [follow, hcursor, lookAhead]
    by_cases hlast : rest.length ≤ limit
    · have hshort : ¬ limit < (rest.take (limit + 1)).length := by
        rw [List.length_take]
        omega
      refine ⟨[rest.take (limit + 1)], ?_, ?_, ?_⟩
      · simp only [if_neg hshort, if_true]
      · rw [List.flatten_singleton, List.take_of_length_le (by omega)]
      · rw [List.take_of_length_le (by omega)]
        exact List.forall_mem_singleton.mpr hlast
    · -- the row of the cursor, and what comes after it
      have hlong : limit < (rest.take (limit + 1)).length := by
        rw [List.length_take]
        omega
      have hlt : limit - 1 < rest.length := by omega
      have hlastRow : (rest.take (limit + 1))[limit - 1]? = some rest[limit - 1] := by
        rw [List.getElem?_take_of_lt (by omega), List.getElem?_eq_getElem hlt]
      have hsplit : rest = rest.take (limit - 1) ++ rest[limit - 1] :: rest.drop limit := by
        have hdrop := List.drop_eq_getElem_cons hlt
        rw [Nat.sub_add_cancel hlimit] at hdrop
        rw [← hdrop, List.take_append_drop]
      have hrows' : Rank.sortBy rank rows =
          (before ++ rest.take (limit - 1)) ++ rest[limit - 1] :: rest.drop limit := by
        rw [hrows, List.append_assoc, ← hsplit]
      have hmem : rest[limit - 1] ∈ rows := by
        refine Rank.mem_sortBy.mp (?_ : _ ∈ Rank.sortBy rank rows)
        rw [hrows]
        exact List.mem_append_right _ (List.getElem_mem hlt)
      have hafter := hnext _ hmem
      rw [keyset, Rank.sortBy_filter hdistinct,
        Rank.filter_lt_of_eq_append hdistinct hrows'] at hafter
      have hrows'' : Rank.sortBy rank rows = (before ++ rest.take limit) ++ rest.drop limit := by
        rw [hrows, List.append_assoc, List.take_append_drop]
      obtain ⟨pages, hpages, hflatten, hlength⟩ :=
        ih hrows'' (by rw [List.length_drop]; omega) hafter
      refine ⟨rest.take limit :: pages, ?_, ?_, ?_⟩
      · simp only [if_pos hlong, hlastRow, Option.map_some, Option.getD_some,
          if_neg (hne _ hmem), hpages, List.take_take, Nat.min_eq_left (Nat.le_succ limit)]
      · rw [List.flatten_cons, hflatten, List.take_append_drop]
      · exact List.forall_mem_cons.mpr ⟨List.length_take_le .., hlength⟩

/-- **Keyset pagination is complete**, as long as no two rows have the same rank and the listing
knows the cursors it hands out. -/
theorem complete_of_keyset (hlimit : 0 < limit) (hdistinct : Rank.Distinct rank rows)
    (hstart : list start = some (keyset rank encode start limit rows))
    (hnext : ∀ r ∈ rows, list (encode r) =
      some (keyset rank encode start limit (rows.filter fun q ↦ rank r < rank q)))
    (hne : ∀ r ∈ rows, encode r ≠ start) :
    Complete list start limit (Rank.sortBy rank rows) := by
  obtain ⟨pages, h⟩ := follow_suffix hlimit hdistinct hnext hne (List.nil_append _).symm
    (Nat.lt_succ_self _) hstart
  exact ⟨_, pages, h⟩

end Keyset

/-! ## Offsets -/

/-- **A listing by number is complete**: enough of its pages are together `rows`, and each of them
says how many rows there are.  No page begins beyond `bound`. -/
def Numbered (page : Nat → Option (List ρ × Int)) (size bound : Nat) (rows : List ρ) : Prop :=
  ∀ n, rows.length ≤ n * size → n * size ≤ bound →
    ∃ pages : List (List ρ × Int),
    (List.range n).map page = pages.map some ∧ (pages.map Prod.fst).flatten = rows ∧
      ∀ p ∈ pages, p.1.length ≤ size ∧ p.2 = rows.length

/-- The pages of a listing by offset, one after the other. -/
theorem flatten_offset (rows : List ρ) (size n : Nat) :
    ((List.range n).map fun p ↦ (rows.drop (p * size)).take size).flatten =
      rows.take (n * size) := by
  induction n with
  | zero => simp
  | succ n ih =>
    rw [List.range_succ, List.map_append, List.flatten_append, ih, List.map_singleton,
      List.flatten_singleton, ← List.take_add, Nat.succ_mul]

theorem numbered_of_offset {page : Nat → Option (List ρ × Int)} {size bound : Nat} {rows : List ρ}
    (h : ∀ p, p * size ≤ bound →
      page p = some ((rows.drop (p * size)).take size, (rows.length : Int))) :
    Numbered page size bound rows := by
  intro n hrows hbound
  refine ⟨(List.range n).map fun p ↦ ((rows.drop (p * size)).take size, (rows.length : Int)), ?_,
    ?_, ?_⟩
  · rw [List.map_map]
    refine List.map_congr_left fun p hp ↦ h p ?_
    exact (Nat.mul_le_mul_right size (List.mem_range.mp hp).le).trans hbound
  · rw [List.map_map]
    exact (flatten_offset rows size n).trans (List.take_of_length_le hrows)
  · intro p hp
    obtain ⟨i, -, rfl⟩ := List.mem_map.mp hp
    exact ⟨List.length_take_le .., rfl⟩

/-! ### Pages out of orders with ties -/

/-- The first `n` pages of a listing by offset, each out of an order of its own. -/
def offsetPages (orders : Nat → List ρ) (size n : Nat) : List ρ :=
  ((List.range n).map fun p ↦ ((orders p).drop (p * size)).take size).flatten

theorem offsetPages_succ (orders : Nat → List ρ) (size n : Nat) :
    offsetPages orders size (n + 1) =
      offsetPages orders size n ++ ((orders n).drop (n * size)).take size := by
  rw [offsetPages, List.range_succ, List.map_append, List.flatten_append, List.map_singleton,
    List.flatten_singleton]
  rfl

section Ties

variable [LinearOrder κ] {rank : ρ → κ} {rows : List ρ} {size n : Nat}

/-- **Pages out of different orders fit together** where no tie crosses a border between two
pages. -/
theorem offsetPages_perm {orders : Nat → List ρ} (horders : ∀ i, Rank.Orders rank rows (orders i))
    (hborders : ∀ k, 0 < k * size → k * size < rows.length → Rank.Border rank rows (k * size))
    (n : Nat) : (offsetPages orders size n).Perm ((Rank.sortBy rank rows).take (n * size)) := by
  have hsorted : Rank.Orders rank rows (Rank.sortBy rank rows) := Rank.orders_sortBy rows
  have hbefore :
      ∀ k i, ((orders i).take (k * size)).Perm ((Rank.sortBy rank rows).take (k * size)) := by
    intro k i
    rcases Nat.eq_zero_or_pos (k * size) with hzero | hpos
    · rw [hzero, List.take_zero, List.take_zero]
    · rcases Nat.lt_or_ge (k * size) rows.length with hlt | hge
      · exact (hborders k hpos hlt).take_perm (horders i) hsorted
      · rw [List.take_of_length_le (by rw [(horders i).perm.length_eq]; exact hge),
          List.take_of_length_le (by rw [hsorted.perm.length_eq]; exact hge)]
        exact (horders i).perm.trans hsorted.perm.symm
  induction n with
  | zero => simp [offsetPages]
  | succ n ih =>
    -- The page is what is left of the first `n + 1` pages without the first `n`.
    have hnext := hbefore (n + 1) n
    rw [Nat.succ_mul, List.take_add, List.take_add] at hnext
    have hpage := (List.perm_append_left_iff _).mp (((hbefore n n).append_right _).symm.trans hnext)
    rw [offsetPages_succ, Nat.succ_mul, List.take_add]
    exact ih.append hpage

/-- Pages out of one order up to the page `k`, and out of another from then on. -/
theorem offsetPages_two (l l' : List ρ) (size k m : Nat) :
    offsetPages (fun i ↦ if i < k then l else l') size (k + m) =
      l.take (k * size) ++ (l'.drop (k * size)).take (m * size) := by
  induction m with
  | zero =>
    rw [Nat.zero_mul, List.take_zero, List.append_nil, ← flatten_offset, offsetPages]
    refine congrArg List.flatten (List.map_congr_left fun p hp ↦ ?_)
    rw [if_pos (by exact List.mem_range.mp hp)]
  | succ m ih =>
    rw [← Nat.add_assoc, offsetPages_succ, ih, if_neg (by omega), Nat.succ_mul, List.take_add,
      List.append_assoc, List.drop_drop, ← Nat.add_mul]

/-- Two neighbours of a list. -/
theorem exists_neighbours {l : List ρ} {p : Nat} (hpos : 0 < p) (hlt : p < l.length) :
    ∃ before a b after, l = before ++ a :: b :: after ∧ before.length + 1 = p := by
  obtain ⟨q, rfl⟩ : ∃ q, p = q + 1 := ⟨p - 1, by omega⟩
  refine ⟨l.take q, l[q], l[q + 1], l.drop (q + 2), ?_, ?_⟩
  · rw [← List.drop_eq_getElem_cons hlt, ← List.drop_eq_getElem_cons (by omega),
      List.take_append_drop]
  · rw [List.length_take]
    omega

/-- **Pages that always fit together** have no tie across a border, as long as no row is there
twice. -/
theorem border_of_offsetPages (hnodup : rows.Nodup) (hn : rows.length ≤ n * size)
    (hall : ∀ orders : Nat → List ρ, (∀ i, Rank.Orders rank rows (orders i)) →
      (offsetPages orders size n).Perm rows)
    {k : Nat} (hpos : 0 < k * size) (hlt : k * size < rows.length) :
    Rank.Border rank rows (k * size) := by
  by_contra hno
  have hsorted : Rank.Orders rank rows (Rank.sortBy rank rows) := Rank.orders_sortBy rows
  obtain ⟨before, a, b, after, hsplit, hbefore⟩ :=
    exists_neighbours hpos (hsorted.perm.length_eq.symm ▸ hlt)
  rw [hsplit] at hsorted
  have hswapped := hsorted.swap (by rwa [hbefore])
  have hkn : k < n := Nat.lt_of_mul_lt_mul_right (hlt.trans_le hn)
  obtain ⟨m, rfl⟩ : ∃ m, n = k + m := ⟨n - k, by omega⟩
  have hperm :=
    hall (fun i ↦ if i < k then before ++ a :: b :: after else before ++ b :: a :: after)
    fun i ↦ by split <;> assumption
  have hlength := hsorted.perm.length_eq
  simp only [List.length_append, List.length_cons] at hlength
  rw [Nat.add_mul] at hn
  -- The row before the border is on the page after it once more.
  have htake : (before ++ a :: b :: after).take (k * size) = before ++ [a] := by
    rw [← hbefore, List.take_length_add_append]
    rfl
  have hdrop : (before ++ b :: a :: after).drop (k * size) = a :: after := by
    rw [← hbefore, List.drop_length_add_append]
    rfl
  rw [offsetPages_two, htake, hdrop,
    List.take_of_length_le (by rw [List.length_cons]; omega)] at hperm
  have htwice := hperm.nodup_iff.mpr hnodup
  exact (List.nodup_append.mp htwice).2.2 a (by simp) a (List.mem_cons_self ..) rfl

/-- **When a listing by offset is complete**, whatever order it takes each page out of: when no tie
crosses a border between two pages. -/
theorem offsetPages_complete_iff (hnodup : rows.Nodup) (hn : rows.length ≤ n * size) :
    (∀ orders : Nat → List ρ, (∀ i, Rank.Orders rank rows (orders i)) →
        (offsetPages orders size n).Perm rows) ↔
      ∀ k, 0 < k * size → k * size < rows.length → Rank.Border rank rows (k * size) := by
  refine ⟨fun hall k hpos hlt ↦ border_of_offsetPages hnodup hn hall hpos hlt,
    fun hborders orders horders ↦ ?_⟩
  have hpages := offsetPages_perm horders hborders n
  rw [List.take_of_length_le (by rw [(Rank.sortBy_perm rows).length_eq]; exact hn)] at hpages
  exact hpages.trans (Rank.sortBy_perm rows)

end Ties

end Page
