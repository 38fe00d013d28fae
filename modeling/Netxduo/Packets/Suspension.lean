import Netxduo.Library.Rings

/-! Threads that wait for a resource: the list of them in a control block, linked through the threads. -/

namespace Netxduo.Suspension

open Rings

/-! ### The source -/

/-- The head of a suspension list with its count, and `tx_thread_suspended_next` and `tx_thread_suspended_previous` of
    all threads. --/
structure SuspensionList where
  head : Option Nat
  count : Nat
  next : Nat → Nat
  previous : Nat → Nat

/-- A thread is added to the end. --/
def SuspensionList.suspend (t : Nat) (s : SuspensionList) : SuspensionList :=
  s.head.elim
    { s with
      head := some t
      next := Function.update s.next t t
      previous := Function.update s.previous t t
      count := s.count + 1 }
    fun h => { s with
      next := Function.update (Function.update s.next t h) (s.previous h) t
      previous := Function.update (Function.update s.previous t (s.previous h)) h t
      count := s.count + 1 }

/-- A thread is removed: the first one, which is resumed, or any one by its cleanup routine. --/
def SuspensionList.remove (t : Nat) (s : SuspensionList) : SuspensionList :=
  if t = s.next t then { s with head := none, count := s.count - 1 }
  else { s with
    head := if s.head = some t then some (s.next t) else s.head
    previous := Function.update s.previous (s.next t) (s.previous t)
    next := Function.update s.next (s.previous t) (s.next t)
    count := s.count - 1 }

/-! ### Who waits -/

/-- These threads wait, in this order. --/
structure SuspensionList.Waits (s : SuspensionList) (threads : List Nat) : Prop where
  circular : Circular s.next s.previous s.head threads
  nodup : threads.Nodup
  count : s.count = threads.length

section
variable {s : SuspensionList} {threads front back : List Nat} {t : Nat}

theorem SuspensionList.Waits.head (h : s.Waits threads) : s.head = threads.head? := h.circular.head_eq

theorem SuspensionList.Waits.suspend (h : s.Waits threads) (ht : t ∉ threads) : (s.suspend t).Waits (threads ++ [t]) :=
    by
  have hcount : (s.suspend t).count = (threads ++ [t]).length := by
    rw [List.length_append, ← h.count]
    unfold SuspensionList.suspend
    cases s.head <;> rfl
  have hnodup : (threads ++ [t]).Nodup :=
    List.nodup_append.mpr ⟨h.nodup, List.nodup_singleton t, fun a ha b hb hab => by
      rw [List.mem_singleton.mp hb] at hab
      exact ht (hab ▸ ha)⟩
  refine ⟨?_, hnodup, hcount⟩
  unfold SuspensionList.suspend
  cases threads with
  | nil =>
    rw [show s.head = none from h.circular]
    exact circular_single
  | cons a threads =>
    have hhead : s.head = some a := h.circular.1
    have hcircular := h.circular
    rw [hhead] at hcircular ⊢
    exact hcircular.join ht h.nodup

/-- A thread that leaves; the others keep their order. --/
theorem SuspensionList.Waits.remove (h : s.Waits (front ++ t :: back)) : (s.remove t).Waits (front ++ back) := by
  have hcount : (s.remove t).count = (front ++ back).length := by
    have hlength : s.count - 1 = (front ++ back).length := by
      rw [h.count, List.length_append, List.length_append, List.length_cons, ← Nat.add_assoc, Nat.add_sub_cancel]
    rw [← hlength]
    unfold SuspensionList.remove
    split <;> rfl
  have hnodup : (front ++ back).Nodup := (List.nodup_cons.mp (List.nodup_middle.mp h.nodup)).2
  refine ⟨?_, hnodup, hcount⟩
  have hself := h.circular.next_eq_self h.nodup
  unfold SuspensionList.remove
  by_cases hnext : t = s.next t
  · rw [if_pos hnext, hself.mp hnext.symm]
    rfl
  · rw [if_neg hnext]
    exact h.circular.leave h.nodup fun hnil => hnext (hself.mpr hnil).symm

/-- The first one leaves. --/
theorem SuspensionList.Waits.remove_first (h : s.Waits (t :: back)) : (s.remove t).Waits back :=
  @SuspensionList.Waits.remove s [] back t h

/-- The list may be entered anywhere. --/
theorem SuspensionList.Waits.enter (h : s.Waits (front ++ t :: back)) :
    SuspensionList.Waits { s with head := some t } (t :: (back ++ front)) := by
  have hperm : (t :: (back ++ front)).Perm (front ++ t :: back) :=
    (List.perm_append_comm : (t :: back ++ front).Perm (front ++ t :: back))
  refine ⟨⟨rfl, ?_⟩, hperm.nodup_iff.mpr h.nodup, ?_⟩
  · have hcircular := h.circular
    cases front with
    | nil =>
      rw [List.append_nil]
      exact hcircular.2
    | cons a front => exact hcircular.2.rotate
  · show s.count = _
    rw [h.count, hperm.length_eq]

end

end Netxduo.Suspension
