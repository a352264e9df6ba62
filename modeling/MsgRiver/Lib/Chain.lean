import Mathlib.Tactic.Common

/-!
# Chains of links

A chain leads from a start over a list of entries to an end, one link for each entry.  When the end
of a link determines the entry and the point before it, and every link raises a rank by one, the end
of a chain determines all of it.
-/

namespace Chain

variable {H E : Type*}

/-- The entries lead from `start` to the last index. -/
inductive Leads (link : H → E → H → Prop) (start : H) : List E → H → Prop
  | nil : Leads link start [] start
  | snoc {xs : List E} {h k : H} {e : E} :
      Leads link start xs h → link h e k → Leads link start (xs ++ [e]) k

variable {link : H → E → H → Prop} {start : H}

theorem Leads.cons {h k : H} {e : E} {xs : List E} (hlink : link start e h)
    (h : Leads link h xs k) : Leads link start (e :: xs) k := by
  induction h with
  | nil => exact .snoc .nil hlink
  | snoc _ hlast ih => exact .snoc ih hlast

theorem Leads.rank_eq {rank : H → ℕ} (hrank : ∀ h e k, link h e k → rank k = rank h + 1)
    {xs : List E} {k : H} (h : Leads link start xs k) : rank k = rank start + xs.length := by
  induction h with
  | nil => rfl
  | snoc _ hlast ih =>
    rw [hrank _ _ _ hlast, ih, List.length_append, List.length_singleton]
    omega

/-- **The end of a chain determines its entries**, if a link can be read backwards on the entries of
the two chains. -/
theorem Leads.eq_of_end {rank : H → ℕ} (hrank : ∀ h e k, link h e k → rank k = rank h + 1)
    {xs ys : List E} {k : H}
    (hback : ∀ e ∈ xs, ∀ e' ∈ ys, ∀ h h' k, link h e k → link h' e' k → h = h' ∧ e = e')
    (hx : Leads link start xs k) (hy : Leads link start ys k) : xs = ys := by
  induction hx generalizing ys with
  | nil =>
    -- a chain that ends where it started has no entries
    have hlength := hy.rank_eq hrank
    exact (List.length_eq_zero_iff.1 (by omega)).symm
  | snoc hxs hlast ih =>
    cases hy with
    | nil =>
      have hlength := (Leads.snoc hxs hlast).rank_eq hrank
      rw [List.length_append, List.length_singleton] at hlength
      omega
    | snoc hys hlast' =>
      obtain ⟨rfl, rfl⟩ := hback _ (List.mem_append_right _ List.mem_cons_self) _
        (List.mem_append_right _ List.mem_cons_self) _ _ _ hlast hlast'
      rw [ih (fun e he e' he' => hback e (List.mem_append_left _ he) e' (List.mem_append_left _ he'))
        hys]

/-! ### The points of a chain -/

section Points

variable {rank : H → ℕ} {prior next : E → H}

/-- The point with rank `n`. -/
def pointAt (rank : H → ℕ) (next : E → H) (start : H) (xs : List E) (n : ℕ) : Option H :=
  if rank start = n then some start else (xs.find? fun e => rank (next e) == n).map next

/-- The rank counts the entries, and an entry knows the points beside it. -/
structure Numbered (link : H → E → H → Prop) (rank : H → ℕ) (prior next : E → H) : Prop where
  rank_eq : ∀ h e k, link h e k → rank k = rank h + 1
  prior_eq : ∀ h e k, link h e k → prior e = h
  next_eq : ∀ h e k, link h e k → next e = k

theorem Leads.rank_le (hlink : Numbered link rank prior next) {xs : List E} {k : H}
    (h : Leads link start xs k) : rank start ≤ rank k := by
  have hlength := h.rank_eq hlink.rank_eq
  omega

theorem Leads.rank_next_le (hlink : Numbered link rank prior next) {xs : List E} {k : H}
    (h : Leads link start xs k) : ∀ e ∈ xs, rank (next e) ≤ rank k := by
  induction h with
  | nil => exact fun e he => nomatch he
  | snoc _ hlast ih =>
    intro e he
    have hrank := hlink.rank_eq _ _ _ hlast
    rcases List.mem_append.1 he with he | he
    · have hle := ih e he
      omega
    · obtain rfl := List.mem_singleton.1 he
      exact Nat.le_of_eq (congrArg rank (hlink.next_eq _ _ _ hlast))

/-- The points up to the last but one do not depend on the last entry. -/
theorem pointAt_snoc (hlink : Numbered link rank prior next) {xs : List E} {h k : H} {e : E}
    (hlast : link h e k) {n : ℕ} (hn : n ≤ rank h) :
    pointAt rank next start (xs ++ [e]) n = pointAt rank next start xs n := by
  have hrank := hlink.rank_eq _ _ _ hlast
  have hnone : [e].find? (fun e => rank (next e) == n) = none := by
    rw [List.find?_singleton, hlink.next_eq _ _ _ hlast, if_neg]
    rw [beq_iff_eq]
    omega
  rw [pointAt, pointAt, List.find?_append, hnone, Option.or_none]

/-- The last point. -/
theorem Leads.pointAt_end (hlink : Numbered link rank prior next) {xs : List E} {k : H}
    (h : Leads link start xs k) : pointAt rank next start xs (rank k) = some k := by
  cases h with
  | nil => exact if_pos rfl
  | @snoc xs h k e hxs hlast =>
    have hrank := hlink.rank_eq _ _ _ hlast
    have hstart := hxs.rank_le hlink
    have hnone : xs.find? (fun e => rank (next e) == rank k) = none := by
      rw [List.find?_eq_none]
      intro e' he'
      have hle := hxs.rank_next_le hlink e' he'
      rw [beq_iff_eq]
      omega
    rw [pointAt, if_neg (by omega), List.find?_append, hnone, Option.none_or, List.find?_singleton,
      hlink.next_eq _ _ _ hlast, if_pos (beq_self_eq_true _), Option.map_some,
      hlink.next_eq _ _ _ hlast]

/-- The point before an entry. -/
theorem Leads.pointAt_prior (hlink : Numbered link rank prior next) {xs : List E} {k : H}
    (h : Leads link start xs k) {e : E} (he : e ∈ xs) {n : ℕ} (hn : rank (next e) = n + 1) :
    pointAt rank next start xs n = some (prior e) := by
  induction h with
  | nil => cases he
  | @snoc xs h k e' hxs hlast ih =>
    have hrank := hlink.rank_eq _ _ _ hlast
    rcases List.mem_append.1 he with he | he
    · have hle := hxs.rank_next_le hlink e he
      rw [pointAt_snoc hlink hlast (by omega)]
      exact ih he
    · obtain rfl := List.mem_singleton.1 he
      rw [hlink.next_eq _ _ _ hlast] at hn
      obtain rfl : n = rank h := by omega
      rw [pointAt_snoc hlink hlast (Nat.le_refl _), hlink.prior_eq _ _ _ hlast]
      exact hxs.pointAt_end hlink

/-- There is an entry behind every point but the last. -/
theorem Leads.exists_entry (hlink : Numbered link rank prior next) {xs : List E} {k : H}
    (h : Leads link start xs k) {n : ℕ} (hstart : rank start ≤ n) (hend : n < rank k) :
    ∃ e ∈ xs, rank (next e) = n + 1 := by
  induction h with
  | nil => omega
  | @snoc xs h k e hxs hlast ih =>
    have hrank := hlink.rank_eq _ _ _ hlast
    by_cases hn : n < rank h
    · obtain ⟨e', he', hnext⟩ := ih hn
      exact ⟨e', List.mem_append_left _ he', hnext⟩
    · refine ⟨e, List.mem_append_right _ List.mem_cons_self, ?_⟩
      rw [hlink.next_eq _ _ _ hlast]
      omega

end Points

end Chain
