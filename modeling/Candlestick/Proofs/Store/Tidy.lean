import Candlestick.Store.Table

/-!
# Tidy tables

A table that is built by inserting candles under their own pairs holds at most one candle
for each pair, in the order of the pairs (`Table.Tidy`). What is stored under one pair can
then be read off the entries (`Tidy.nodup`), and the candles that a deal stores are found
one by one (`get?_insertAll_of_mem`).
-/

namespace Candlestick

namespace Pair

theorem precedes_iff {p q : Pair} :
    p.precedes q = true ↔ p.market.symbol < q.market.symbol ∨
      (p.market = q.market ∧ p.resolution.rank < q.resolution.rank) := by
  simp [precedes]

theorem precedes_irrefl (p : Pair) : ¬ p.precedes p = true := by
  rw [precedes_iff]
  rintro (h | ⟨-, h⟩)
  · exact String.lt_irrefl _ h
  · exact Nat.lt_irrefl _ h

theorem precedes_trans {p q r : Pair} (hpq : p.precedes q = true) (hqr : q.precedes r = true) :
    p.precedes r = true := by
  rw [precedes_iff] at *
  obtain h | ⟨h, hr⟩ := hpq
  · obtain h' | ⟨h', -⟩ := hqr
    · exact .inl (String.lt_trans h h')
    · exact .inl (h' ▸ h)
  · obtain h' | ⟨h', hr'⟩ := hqr
    · exact .inl (h ▸ h')
    · exact .inr ⟨h.trans h', Nat.lt_trans hr hr'⟩

theorem precedes_of_not_precedes {p q : Pair} (ne : p ≠ q) (h : ¬ q.precedes p = true) :
    p.precedes q = true := by
  rw [precedes_iff] at *
  obtain ⟨⟨ps⟩, pr⟩ := p
  obtain ⟨⟨qs⟩, qr⟩ := q
  simp only [not_or, not_and, Nat.not_lt, Market.mk.injEq, ne_eq, Pair.mk.injEq] at *
  by_cases hlt : ps < qs
  · exact .inl hlt
  · have same : qs = ps := String.le_antisymm (String.not_lt.mp hlt) (String.not_lt.mp h.1)
    have rank := h.2 same
    refine .inr ⟨same.symm, Nat.lt_of_le_of_ne rank fun hr => ?_⟩
    exact ne same.symm (Resolution.rank_injective hr)

end Pair

namespace Table

/-- One candle at most for each pair, under its own pair and in order. -/
structure Tidy (t : Table) : Prop where
  ordered : t.entries.Pairwise fun a b => a.1.precedes b.1 = true
  keyed : ∀ e ∈ t.entries, e.2.pair = e.1

theorem mem_insertIn {pair : Pair} {candle : Candle} {e : Pair × Candle}
    {entries : List (Pair × Candle)} (h : e ∈ insertIn pair candle entries) :
    e = (pair, candle) ∨ e ∈ entries := by
  induction entries with
  | nil => exact .inl (List.mem_singleton.mp h)
  | cons first rest ih =>
    obtain ⟨p, c⟩ := first
    rw [insertIn] at h
    split at h
    · exact (List.mem_cons.mp h).imp_right (List.mem_cons_of_mem _)
    · split at h
      · exact List.mem_cons.mp h
      · rcases List.mem_cons.mp h with rfl | h
        · exact .inr (List.mem_cons_self ..)
        · exact (ih h).imp_right (List.mem_cons_of_mem _)

theorem pairwise_insertIn {pair : Pair} (candle : Candle) {entries : List (Pair × Candle)}
    (h : entries.Pairwise fun a b => a.1.precedes b.1 = true) :
    (insertIn pair candle entries).Pairwise fun a b => a.1.precedes b.1 = true := by
  induction entries with
  | nil => exact List.pairwise_singleton _ _
  | cons first rest ih =>
    obtain ⟨p, c⟩ := first
    have hp := List.pairwise_cons.mp h
    rw [insertIn]
    split
    · next same => exact List.pairwise_cons.mpr ⟨fun e he => same ▸ hp.1 e he, hp.2⟩
    · next ne =>
      split
      · next before =>
        refine List.pairwise_cons.mpr ⟨fun e he => ?_, h⟩
        rcases List.mem_cons.mp he with rfl | he
        · exact before
        · exact Pair.precedes_trans before (hp.1 e he)
      · next behind =>
        refine List.pairwise_cons.mpr ⟨fun e he => ?_, ih hp.2⟩
        rcases mem_insertIn he with rfl | he
        · exact Pair.precedes_of_not_precedes ne behind
        · exact hp.1 e he

theorem tidy_empty : Tidy {} := ⟨.nil, by simp⟩

theorem Tidy.insert {t : Table} (h : t.Tidy) {pair : Pair} {candle : Candle}
    (own : candle.pair = pair) : (t.insert pair candle).Tidy := by
  refine ⟨pairwise_insertIn candle h.ordered, fun e he => ?_⟩
  rcases mem_insertIn he with rfl | he
  · exact own
  · exact h.keyed e he

theorem Tidy.insertAll {candles : List (Pair × Candle)} {t : Table} (h : t.Tidy)
    (own : ∀ e ∈ candles, e.2.pair = e.1) : (t.insertAll candles).Tidy := by
  induction candles generalizing t with
  | nil => exact h
  | cons e rest ih =>
    exact ih (h.insert (own e (by simp))) fun e he => own e (List.mem_cons_of_mem _ he)

theorem Tidy.mapCandles {t : Table} (h : t.Tidy) {f : Candle → Candle}
    (own : ∀ c, (f c).pair = c.pair) : (t.mapCandles f).Tidy := by
  refine ⟨List.pairwise_map.mpr h.ordered, fun e he => ?_⟩
  obtain ⟨entry, hentry, rfl⟩ := List.mem_map.mp he
  exact (own entry.2).trans (h.keyed entry hentry)

-- ---------------------------------------------------------------------------
-- Lookups
-- ---------------------------------------------------------------------------

theorem mem_of_findIn? {pair : Pair} {c : Candle} {entries : List (Pair × Candle)}
    (h : findIn? pair entries = some c) : (pair, c) ∈ entries := by
  induction entries with
  | nil => cases h
  | cons first rest ih =>
    obtain ⟨p, d⟩ := first
    rw [findIn?] at h
    split at h
    · next same =>
      cases h
      exact same ▸ List.mem_cons_self ..
    · exact List.mem_cons_of_mem _ (ih h)

theorem Tidy.pair_of_get? {t : Table} (h : t.Tidy) {pair : Pair} {c : Candle}
    (found : t.get? pair = some c) : c.pair = pair :=
  h.keyed _ (mem_of_findIn? found)

theorem Tidy.nodup {t : Table} (h : t.Tidy) : (t.entries.map Prod.fst).Nodup := by
  refine List.pairwise_map.mpr (h.ordered.imp fun before same => ?_)
  rw [same] at before
  exact Pair.precedes_irrefl _ before

theorem findIn?_eq_none {pair : Pair} {entries : List (Pair × Candle)}
    (h : findIn? pair entries = none) : ∀ e ∈ entries, e.1 ≠ pair := by
  induction entries with
  | nil => simp
  | cons first rest ih =>
    obtain ⟨p, c⟩ := first
    rw [findIn?] at h
    split at h
    · cases h
    · next ne =>
      rintro e he rfl
      rcases List.mem_cons.mp he with rfl | he
      · exact ne rfl
      · exact ih h e he rfl

theorem mem_of_get? {t : Table} {pair : Pair} {c : Candle} (h : t.get? pair = some c) :
    (pair, c) ∈ t.entries :=
  mem_of_findIn? h

theorem ne_of_get?_eq_none {t : Table} {pair : Pair} (h : t.get? pair = none) :
    ∀ e ∈ t.entries, e.1 ≠ pair :=
  findIn?_eq_none h

theorem get?_insertAll_of_not_mem {pair : Pair} {candles : List (Pair × Candle)} (t : Table)
    (h : ∀ e ∈ candles, e.1 ≠ pair) : (t.insertAll candles).get? pair = t.get? pair := by
  induction candles generalizing t with
  | nil => rfl
  | cons e rest ih =>
    have step := ih (t.insert e.1 e.2) fun e he => h e (List.mem_cons_of_mem _ he)
    exact step.trans (get?_insert_of_ne t e.2 (h e (by simp)))

theorem get?_insertAll_of_mem {pair : Pair} {c : Candle} {candles : List (Pair × Candle)}
    (t : Table) (nodup : (candles.map Prod.fst).Nodup) (h : (pair, c) ∈ candles) :
    (t.insertAll candles).get? pair = some c := by
  induction candles generalizing t with
  | nil => simp at h
  | cons e rest ih =>
    have hn := List.nodup_cons.mp nodup
    rcases List.mem_cons.mp h with rfl | h
    · have others : ∀ e ∈ rest, e.1 ≠ pair :=
        fun e he eq => hn.1 (List.mem_map.mpr ⟨e, he, eq⟩)
      have step := get?_insertAll_of_not_mem (t.insert pair c) others
      exact step.trans (get?_insert_self t pair c)
    · exact ih (t.insert e.1 e.2) hn.2 h

end Table

end Candlestick
