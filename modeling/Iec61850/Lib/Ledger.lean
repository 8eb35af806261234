import Mathlib.Data.List.Basic
import Mathlib.Order.MinMax
import Mathlib.Order.Nat

/-! The book kept of a queue that sends its entries one after the other and may give up its
oldest ones. The entries are numbered as they come in. -/

/-- The entries before `first` are not in the queue any more, those before `next` do not wait,
and `sent` are those that have been sent. -/
structure Ledger where
  sent : List Nat
  first : Nat
  next : Nat
  count : Nat
  increasing : sent.Pairwise (· < ·)
  sent_lt : ∀ k ∈ sent, k < next
  notSkipped : ∀ k, first ≤ k → k < next → k ∈ sent
  first_le : first ≤ next
  next_le : next ≤ count

namespace Ledger

def create : Ledger where
  sent := []
  first := 0
  next := 0
  count := 0
  increasing := .nil
  sent_lt := fun _ h => absurd h List.not_mem_nil
  notSkipped := fun k _ h => absurd h (Nat.not_lt_zero k)
  first_le := le_rfl
  next_le := le_rfl

/-- A new entry. -/
def append (l : Ledger) : Ledger :=
  { l with
    count := l.count + 1
    next_le := Nat.le_succ_of_le l.next_le }

theorem notSkipped_evict {l : Ledger} {n k : Nat} (hn : max l.first n ≤ k) (hk : k < max l.next n) :
    k ∈ l.sent := by
  have hlt : k < l.next := by
    rcases lt_max_iff.mp hk with h | h
    · exact h
    · exact absurd (le_of_max_le_right hn) (Nat.not_le_of_lt h)
  exact l.notSkipped k (le_of_max_le_left hn) hlt

/-- The entries before the `n`th are given up. -/
def evict (l : Ledger) (n : Nat) (h : n ≤ l.count) : Ledger where
  sent := l.sent
  first := max l.first n
  next := max l.next n
  count := l.count
  increasing := l.increasing
  sent_lt := fun k hk => lt_max_of_lt_left (l.sent_lt k hk)
  notSkipped := fun _ => notSkipped_evict
  first_le := max_le_max l.first_le le_rfl
  next_le := max_le l.next_le h

theorem increasing_send {l : Ledger} : (l.sent ++ [l.next]).Pairwise (· < ·) := by
  apply List.pairwise_append.mpr
  refine ⟨l.increasing, List.pairwise_singleton _ _, ?_⟩
  intro k hk j hj
  rw [List.mem_singleton.mp hj]
  exact l.sent_lt k hk

theorem sent_lt_send {l : Ledger} {k : Nat} (h : k ∈ l.sent ++ [l.next]) : k < l.next + 1 := by
  rcases List.mem_append.mp h with h | h
  · exact Nat.lt_succ_of_lt (l.sent_lt k h)
  · rw [List.mem_singleton.mp h]
    exact Nat.lt_succ_self _

theorem notSkipped_send {l : Ledger} {k : Nat} (hk : l.first ≤ k) (hlt : k < l.next + 1) :
    k ∈ l.sent ++ [l.next] := by
  rcases Nat.lt_succ_iff_lt_or_eq.mp hlt with h | rfl
  · exact List.mem_append_left _ (l.notSkipped k hk h)
  · exact List.mem_append_right _ List.mem_cons_self

/-- The next entry is sent. -/
def send (l : Ledger) (h : l.next < l.count) : Ledger where
  sent := l.sent ++ [l.next]
  first := l.first
  next := l.next + 1
  count := l.count
  increasing := increasing_send
  sent_lt := fun _ => sent_lt_send
  notSkipped := fun _ => notSkipped_send
  first_le := Nat.le_succ_of_le l.first_le
  next_le := h

end Ledger
