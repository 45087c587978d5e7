/-
Module: FastCgi.Proofs.LibcoTimeout
Layer: Proofs
Purpose: `AddTimeout` and `TakeAllTimeout` keep the items of the wheel ahead of its
  start, so that whatever is due has been taken.
Trusted boundary: none
Main exports: Libco.Wheel.addTimeout, Libco.Wheel.takeAllTimeout
-/
import FastCgi.Proofs.LibcoLinks
import Mathlib.Data.Int.Basic

namespace FastCgi

namespace Libco

variable {t : Timeout} {links : ItemLinks} {lists lists' : LinkPtr → List ItemPtr}
  {expire : ItemPtr → Nat} {x : ItemPtr} {now : Nat}

theorem Wheel.started (wheel : Wheel t lists expire) (now : Nat) : t.started now = t := by
  rw [Timeout.started, if_neg wheel.start.ne']

theorem Timeout.slot_eq {ahead : Nat} (index : 0 ≤ t.llStartIdx)
    (fits : t.llStartIdx.toNat + ahead < 2 ^ 64) :
    t.slot ahead = (t.llStartIdx.toNat + ahead) % t.iItemSize := by
  have total : t.llStartIdx + ahead = ((t.llStartIdx.toNat + ahead : Nat) : Int) := by
    push_cast
    omega
  rw [Timeout.slot, total, BitVec.ofInt_natCast, BitVec.toNat_ofNat, Nat.mod_eq_of_lt fits]

/-- The wheel looks at the slots only. -/
theorem Wheel.of_slots (wheel : Wheel t lists expire) {expire' : ItemPtr → Nat}
    (slots : ∀ k, ∀ x ∈ lists' (.pItems k), x ∈ lists (.pItems k) ∧ expire x = expire' x) :
    Wheel t lists' expire' :=
  { wheel with
    slots := fun k x member => by
      obtain ⟨ahead, positive, small, here, due⟩ := wheel.slots k x (slots k x member).1
      exact ⟨ahead, positive, small, here, (slots k x member).2 ▸ due⟩ }

/-- `AddTimeout` refuses a time before the start of the wheel, or puts the item into a
slot that comes up no later than the item is due. -/
theorem Wheel.addTimeout (wheel : Wheel t lists expire) (links : ItemLinks)
    (later : now < expire x) :
    if now < t.ullStart then addTimeout t links x (expire x) now = (false, t, links)
    else ∃ k, addTimeout t links x (expire x) now = (true, t, links.addTail (.pItems k) x) ∧
      Wheel t (Function.update lists (.pItems k) (lists (.pItems k) ++ [x])) expire := by
  have size := wheel.size
  split
  · rename_i before
    simp only [Libco.addTimeout, wheel.started, if_pos before]
  · rename_i notBefore
    -- An item that is too far away is put into the last slot.
    have cut : ∃ ahead, (if t.iItemSize ≤ expire x - t.ullStart then t.iItemSize - 1
        else expire x - t.ullStart) = ahead ∧ 0 < ahead ∧ ahead < t.iItemSize ∧
        t.ullStart + ahead ≤ expire x := by
      refine ⟨_, rfl, ?_, ?_, ?_⟩ <;> split <;> omega
    obtain ⟨ahead, cut, positive, small, due⟩ := cut
    refine ⟨t.slot ahead, ?_, ?_⟩
    · simp only [Libco.addTimeout, wheel.started, if_neg notBefore, if_neg later.le.not_gt, cut]
    · refine { wheel with slots := fun k y member => ?_ }
      by_cases here : k = t.slot ahead
      · subst here
        rw [Function.update_self, List.mem_append, List.mem_singleton] at member
        rcases member with member | rfl
        · exact wheel.slots _ y member
        · exact ⟨ahead, positive, small, rfl, due⟩
      · rw [Function.update_of_ne (by simpa using here)] at member
        exact wheel.slots k y member

theorem taken_nothing : Taken lists lists fun _ => False where
  kept _ _ := rfl
  gone _ := False.elim
  active := rfl
  result x := by simp

/-- `Join` empties one slot. -/
theorem taken_slot (k : Nat) :
    Taken lists (Function.update (Function.update lists .pstTimeoutList
      (lists .pstTimeoutList ++ lists (.pItems k))) (.pItems k) []) fun slot => slot = k where
  kept k' other := by
    rw [Function.update_of_ne (by simpa using other), Function.update_of_ne (by simp)]
  gone k' same := by rw [same, Function.update_self]
  active := by rw [Function.update_of_ne (by simp), Function.update_of_ne (by simp)]
  result x := by
    rw [Function.update_of_ne (by simp), Function.update_self, List.mem_append]
    simp

theorem Taken.trans {lists'' : LinkPtr → List ItemPtr} {slots slots' : Nat → Prop}
    (first : Taken lists lists' slots) (second : Taken lists' lists'' slots') :
    Taken lists lists'' fun k => slots k ∨ slots' k where
  kept k other := by
    rw [second.kept k fun taken => other (.inr taken), first.kept k fun taken => other (.inl taken)]
  gone k taken := by
    by_cases again : slots' k
    · exact second.gone k again
    · rw [second.kept k again, first.gone k (taken.resolve_right again)]
  active := second.active.trans first.active
  result x := by
    rw [second.result, first.result]
    constructor
    · rintro ((old | ⟨k, taken, member⟩) | ⟨k, taken, member⟩)
      · exact .inl old
      · exact .inr ⟨k, .inl taken, member⟩
      · by_cases before : slots k
        · rw [first.gone k before] at member
          cases member
        · rw [first.kept k before] at member
          exact .inr ⟨k, .inr taken, member⟩
    · rintro (old | ⟨k, taken, member⟩)
      · exact .inl (.inl old)
      · by_cases before : slots k
        · exact .inl (.inr ⟨k, before, member⟩)
        · refine .inr ⟨k, taken.resolve_left before, ?_⟩
          rwa [first.kept k before]

theorem Taken.length_lt {slots : Nat → Prop} {fuel : Nat} (taken : Taken lists lists' slots)
    (enough : ∀ k, (lists (.pItems k)).length < fuel) (k : Nat) :
    (lists' (.pItems k)).length < fuel := by
  have here := enough k
  by_cases gone : slots k
  · rw [taken.gone k gone]
    exact Nat.zero_lt_of_lt here
  · rwa [taken.kept k gone]

/-- The loop of `TakeAllTimeout` empties the slots that it goes over. -/
theorem takeSlots_takes {fuel : Nat} (cnt i : Nat) (rep : links.Represents lists)
    (index : 0 ≤ t.llStartIdx) (enough : ∀ k, (lists (.pItems k)).length < fuel) :
    ∃ links' lists', takeSlots fuel t .pstTimeoutList cnt i links = .ok links' ∧
      links'.Represents lists' ∧
      Taken lists lists' fun k =>
        ∃ j, i ≤ j ∧ j < i + cnt ∧ k = (t.llStartIdx.toNat + j) % t.iItemSize := by
  induction cnt generalizing i links lists with
  | zero =>
      refine ⟨links, lists, rfl, rep, ?_⟩
      have nothing : (fun k => ∃ j, i ≤ j ∧ j < i + 0 ∧
          k = (t.llStartIdx.toNat + j) % t.iItemSize) = fun _ => False := by
        funext k
        simp only [eq_iff_iff, iff_false]
        rintro ⟨j, low, high, -⟩
        omega
      rw [nothing]
      exact taken_nothing
  | succ cnt inductionHypothesis =>
      have idx : (t.llStartIdx + i).tmod t.iItemSize =
          (((t.llStartIdx.toNat + i) % t.iItemSize : Nat) : Int) := by
        have total : t.llStartIdx + i = ((t.llStartIdx.toNat + i : Nat) : Int) := by
          push_cast
          omega
        rw [total, Int.ofNat_tmod]
      have notNegative : ¬ (((t.llStartIdx.toNat + i) % t.iItemSize : Nat) : Int) < 0 := by omega
      obtain ⟨links₁, joined, rep₁⟩ := rep.join (l := .pstTimeoutList)
        (by simp) (enough ((t.llStartIdx.toNat + i) % t.iItemSize))
      have taken : Taken lists _ _ := taken_slot ((t.llStartIdx.toNat + i) % t.iItemSize)
      obtain ⟨links₂, lists₂, ran, rep₂, further⟩ :=
        inductionHypothesis (i + 1) rep₁ (taken.length_lt enough)
      refine ⟨links₂, lists₂, ?_, rep₂, ?_⟩
      · simp only [takeSlots, idx, if_neg notNegative, Int.toNat_natCast, joined, ok_bind, ran]
      · have slots : (fun k => k = (t.llStartIdx.toNat + i) % t.iItemSize ∨
            ∃ j, i + 1 ≤ j ∧ j < i + 1 + cnt ∧ k = (t.llStartIdx.toNat + j) % t.iItemSize) =
            fun k => ∃ j, i ≤ j ∧ j < i + (cnt + 1) ∧
              k = (t.llStartIdx.toNat + j) % t.iItemSize := by
          funext k
          rw [eq_iff_iff]
          constructor
          · rintro (here | ⟨j, low, high, here⟩)
            · exact ⟨i, le_rfl, by omega, here⟩
            · exact ⟨j, by omega, by omega, here⟩
          · rintro ⟨j, low, high, here⟩
            by_cases first : j = i
            · exact .inl (first ▸ here)
            · exact .inr ⟨j, by omega, by omega, here⟩
        exact slots ▸ taken.trans further

theorem toInt_of_lt {n : Nat} (small : n < 2 ^ 31) : toInt n = n := by
  have whole : n % 2 ^ 32 = n := Nat.mod_eq_of_lt (by omega)
  rw [toInt, BitVec.toInt_eq_toNat_of_lt, BitVec.toNat_ofNat, whole]
  rw [BitVec.toNat_ofNat, whole]
  omega

/-- `TakeAllTimeout` brings the start of the wheel up to the time, and what is left in the
wheel is still ahead of it. -/
theorem Wheel.takeAllTimeout {fuel : Nat} (wheel : Wheel t lists expire)
    (rep : links.Represents lists) (enough : ∀ k, (lists (.pItems k)).length < fuel)
    (soon : now + 1 < t.ullStart + 2 ^ 31) (bound : now < 2 ^ 63) :
    ∃ t' links' lists' slots,
      takeAllTimeout fuel t links now .pstTimeoutList = .ok (t', links') ∧
        links'.Represents lists' ∧ Taken lists lists' slots ∧ Wheel t' lists' expire ∧
        t'.ullStart = max t.ullStart now ∧ ∀ k, slots k → t.ullStart ≤ now := by
  by_cases before : now < t.ullStart
  · refine ⟨t, links, lists, fun _ => False, ?_, rep, taken_nothing, wheel, ?_, by simp⟩
    · simp only [Libco.takeAllTimeout, wheel.started, if_pos before]
    · omega
  · have size := wheel.size
    have index := wheel.index
    have indexStart := wheel.index_start
    have counted : min (toInt (now - t.ullStart + 1)) t.iItemSize =
        ((min (now - t.ullStart + 1) t.iItemSize : Nat) : Int) := by
      rw [toInt_of_lt (by omega)]
      omega
    obtain ⟨cnt, count⟩ : ∃ cnt, cnt = min (now - t.ullStart + 1) t.iItemSize := ⟨_, rfl⟩
    rw [← count] at counted
    obtain ⟨links', lists', ran, rep', taken⟩ := takeSlots_takes cnt 0 rep wheel.index enough
    refine ⟨{ t with ullStart := now, llStartIdx := t.llStartIdx + cnt - 1 }, links', lists', _,
      ?_, rep', taken, ?_, ?_, fun _ _ => Nat.not_lt.mp before⟩
    · have notNegative : ¬ ((cnt : Nat) : Int) < 0 := by omega
      simp only [Libco.takeAllTimeout, wheel.started, if_neg before, counted,
        if_neg notNegative, Int.toNat_natCast, ran, ok_bind]
      rfl
    · refine ⟨wheel.size, wheel.size_int, ?_, bound, ?_, ?_, fun k y member => ?_⟩
      · exact Nat.lt_of_lt_of_le wheel.start (Nat.not_lt.mp before)
      · show 0 ≤ t.llStartIdx + cnt - 1
        omega
      · show t.llStartIdx + cnt - 1 ≤ (now : Int)
        omega
      · have bounded := wheel.start_bound
        have sizeInt := wheel.size_int
        by_cases gone : ∃ j, 0 ≤ j ∧ j < 0 + cnt ∧ k = (t.llStartIdx.toNat + j) % t.iItemSize
        · rw [taken.gone k gone] at member
          cases member
        rw [taken.kept k gone] at member
        obtain ⟨ahead, positive, small, here, due⟩ := wheel.slots k y member
        have fits : t.llStartIdx.toNat + ahead < 2 ^ 64 := by omega
        rw [Timeout.slot_eq wheel.index fits] at here
        -- A slot that was not emptied is further ahead than the time has moved.
        have beyond : cnt ≤ ahead := by
          by_contra within
          exact gone ⟨ahead, Nat.zero_le _, by omega, here⟩
        have moved : (t.llStartIdx + cnt - 1).toNat + (ahead - (now - t.ullStart)) =
            t.llStartIdx.toNat + ahead := by omega
        refine ⟨ahead - (now - t.ullStart), by omega, ?_, ?_, ?_⟩
        · show ahead - (now - t.ullStart) < t.iItemSize
          omega
        · rw [here, Timeout.slot_eq (by show 0 ≤ t.llStartIdx + cnt - 1; omega)]
          · show _ = ((t.llStartIdx + cnt - 1).toNat + _) % t.iItemSize
            rw [moved]
          · show (t.llStartIdx + cnt - 1).toNat + _ < _
            rw [moved]
            exact fits
        · show now + _ ≤ _
          omega
    · show now = _
      omega

end Libco

end FastCgi
