import IrdaUtils.Lib.Tlv
import IrdaUtils.Proofs.ObexValues
import IrdaUtils.Proofs.TextCopies
import IrdaUtils.Spec.Traced

/-! `unicode_to_char` on the array that it narrows. Before turn `n` the first `n` places have
been written, and the byte that is read next stands at `2n + 1`, so that the write front never
comes to a byte that is still needed. -/

namespace Irdadump
open Memory Accesses

namespace Traced

/-- The array at `buf` before turn `n`: the low bytes of `n` units stand at its start, and from
there on it is as it was. -/
structure Front (m : Mem) (buf : ℕ) (us : List (UInt8 × UInt8)) (n : ℕ) (mem : Mem)
    (t : List Access) : Prop where
  low : ∀ i < n, mem (buf + i) = (us.map Prod.snd).getD i 0
  ahead : ∀ x, buf + n ≤ x → mem x = m x
  fresh : ReadsFresh t
  reads : ∀ a, .read a ∈ t → buf ≤ a ∧ a < buf + 2 * n
  writes : ∀ a b, .write a b ∈ t → buf ≤ a ∧ a < buf + n

theorem front_zero (m : Mem) (buf : ℕ) (us : List (UInt8 × UInt8)) : Front m buf us 0 m [] where
  low i hi := absurd hi (Nat.not_lt_zero i)
  ahead _ _ := rfl
  fresh := .nil
  reads _ h := absurd h List.not_mem_nil
  writes _ _ h := absurd h List.not_mem_nil

theorem cond_run (buf n : ℕ) (m : Mem) : (unicodeToCharCond buf n).run m =
    ⟨m (buf + (n * 2 + 1)) ≠ 0, Function.update m (buf + n) (m (buf + (n * 2 + 1))),
      [.read (buf + (n * 2 + 1)), .write (buf + n) (m (buf + (n * 2 + 1)))]⟩ := rfl

theorem unit_low {m : Mem} {buf : ℕ} {us : List (UInt8 × UInt8)} (h : HoldsUnits m buf us) {n : ℕ}
    (hn : n < us.length) : m (buf + (n * 2 + 1)) = (us.map Prod.snd).getD n 0 := by
  have hlen := ObexHeader.units_length us
  have hlies : Tlv.Lies m buf (ObexHeader.units us) := by
    rw [Tlv.Lies, hlen]
    exact h.bytes
  rw [hlies.byte (by omega), ← ObexHeader.units_low us [] n hn, List.append_nil]

theorem low_eq_zero {m : Mem} {buf : ℕ} {us : List (UInt8 × UInt8)} (h : HoldsUnits m buf us) {n : ℕ}
    (hn : n < us.length) : (us.map Prod.snd).getD n 0 = 0 ↔ n + 1 = us.length := by
  rw [List.getD_eq_getElem _ _ (by simpa using hn), List.getElem_map]
  exact h.first n hn

theorem Front.step {m : Mem} {buf : ℕ} {us : List (UInt8 × UInt8)} (h : HoldsUnits m buf us)
    {n : ℕ} (hn : n < us.length) {mem : Mem} {t : List Access} (hf : Front m buf us n mem t) :
    ((unicodeToCharCond buf n).run mem).val = decide (n + 1 ≠ us.length) ∧
      Front m buf us (n + 1) ((unicodeToCharCond buf n).run mem).mem
        (t ++ ((unicodeToCharCond buf n).run mem).trace) := by
  have hread : mem (buf + (n * 2 + 1)) = (us.map Prod.snd).getD n 0 := by
    rw [hf.ahead _ (by omega), unit_low h hn]
  rw [cond_run, hread]
  refine ⟨decide_eq_decide.2 (not_congr (low_eq_zero h hn)), ?_, ?_, ?_, ?_, ?_⟩
  · intro i hi
    simp only
    rcases Nat.lt_succ_iff_lt_or_eq.1 hi with hi | rfl
    · rw [Function.update_of_ne (by omega), hf.low i hi]
    · rw [Function.update_self]
  · intro x hx
    simp only
    rw [Function.update_of_ne (by omega), hf.ahead x (by omega)]
  · -- what was written so far is behind the byte that is read
    have hclear : ∀ b, .write (buf + (n * 2 + 1)) b ∉ t := by
      intro b hb
      have hlt := (hf.writes _ b hb).2
      omega
    rw [List.append_cons]
    exact (hf.fresh.append_read hclear).append_write _ _
  · intro a ha
    rcases List.mem_append.1 ha with ha | ha
    · have := hf.reads a ha
      omega
    · have e : a = buf + (n * 2 + 1) := by simpa using ha
      omega
  · intro a b hb
    rcases List.mem_append.1 hb with hb | hb
    · have := hf.writes a b hb
      omega
    · have e : a = buf + n ∧ b = (us.map Prod.snd).getD n 0 := by simpa using hb
      omega

theorem unicodeToChar_front {m : Mem} {buf : ℕ} {us : List (UInt8 × UInt8)} (h : HoldsUnits m buf us)
    {turns : ℕ} (hturns : us.length - 1 ≤ turns) :
    ((unicodeToChar buf turns).run m).val = some (us.length - 1) ∧
      Front m buf us us.length ((unicodeToChar buf turns).run m).mem
        ((unicodeToChar buf turns).run m).trace := by
  have again : ∀ n mem t, (n < us.length ∧ Front m buf us n mem t) →
      ((unicodeToCharCond buf n).run mem).val = true →
      (n + 1 < us.length ∧ Front m buf us (n + 1) ((unicodeToCharCond buf n).run mem).mem
        (t ++ (((unicodeToCharCond buf n).run mem).trace ++ []))) ∧
        us.length - 1 - (n + 1) < us.length - 1 - n := by
    rintro n mem t ⟨hn, hf⟩ hc
    obtain ⟨hval, hf'⟩ := hf.step h hn
    have hne : n + 1 ≠ us.length := of_decide_eq_true (hval ▸ hc)
    rw [List.append_nil]
    exact ⟨⟨by omega, hf'⟩, by omega⟩
  have left : ∀ n mem t, (n < us.length ∧ Front m buf us n mem t) →
      ((unicodeToCharCond buf n).run mem).val = false →
      n = us.length - 1 ∧ Front m buf us us.length ((unicodeToCharCond buf n).run mem).mem
        (t ++ ((unicodeToCharCond buf n).run mem).trace) := by
    rintro n mem t ⟨hn, hf⟩ hc
    obtain ⟨hval, hf'⟩ := hf.step h hn
    have he : n + 1 = us.length := not_not.1 (of_decide_eq_false (hval ▸ hc))
    rw [he] at hf'
    exact ⟨by omega, hf'⟩
  obtain ⟨n, hval, rfl, hf⟩ := loop_ends (unicodeToCharCond buf) (fun n => pure (n + 1))
    (fun n mem t => n < us.length ∧ Front m buf us n mem t)
    (fun n mem t => n = us.length - 1 ∧ Front m buf us us.length mem t) (fun n => us.length - 1 - n)
    again left turns 0 m [] ⟨h.pos, front_zero m buf us⟩ hturns
  exact ⟨hval, hf⟩

end Traced

/-- A text narrowed in its own array: the loop ends, with the low bytes of the units in front,
and reads nothing that it has written and nothing behind the units. -/
theorem units_narrowed {m : Mem} {buf : ℕ} {us : List (UInt8 × UInt8)} (h : HoldsUnits m buf us)
    {turns : ℕ} (hturns : us.length - 1 ≤ turns) :
    Narrowed m buf us ((Traced.unicodeToChar buf turns).run m) := by
  obtain ⟨hval, hf⟩ := Traced.unicodeToChar_front h hturns
  refine ⟨hval, ?_, ?_, ?_, hf.fresh, hf.reads⟩
  · refine List.ext_getElem (by simp) fun i h1 h2 => ?_
    rw [load_getElem, hf.low i (by simpa using h1), List.getD_eq_getElem _ _ h2]
  · intro i hi
    rw [hf.low i hi, Traced.low_eq_zero h hi]
  · intro x hx
    refine run_mem_outside _ fun b hb => ?_
    have hbetween := hf.writes x b hb
    omega

def narrowSample : Mem := fun i => [7, 7, 7, 0x00, 0x48, 0x04, 0x69, 0x20, 0x00, 0x41, 0x42].getD i 0

theorem units_narrowed_sample : Narrowed narrowSample 3 [(0x00, 0x48), (0x04, 0x69), (0x20, 0x00)]
    ((Traced.unicodeToChar 3 2).run narrowSample) :=
  units_narrowed ⟨by decide, by decide, by decide⟩ (by decide)

/-! ### The array of `parse_obex_header` -/

theorem Traced.loop_log (string : List UInt8) (n : ℕ) {turns : ℕ} (h : string.length - n ≤ turns) :
    let o := (loop (unicodeToCharCond 0) (fun n => pure (n + 1)) turns n).run fun i => string.getD i 0
    o.val.isSome = true ∧ writes o.trace = unicodeToCharLog string n := by
  fun_induction unicodeToCharLoop string n generalizing turns with
  | case1 string n hne hlt ih =>
    obtain ⟨turns, rfl⟩ : ∃ k, turns = k + 1 := ⟨turns - 1, by omega⟩
    have hc := cond_run 0 n fun i => string.getD i 0
    simp only [Nat.zero_add, ne_eq, hne, not_false_eq_true, decide_true] at hc
    have hlen : (string.set n (string.getD (n * 2 + 1) 0)).length - (n + 1) ≤ turns := by
      rw [List.length_set]
      omega
    have hrest := ih hlen
    rw [getD_set string (.inl (by omega))] at hrest
    rw [unicodeToCharLog_next hne, run_loop_again (by rw [hc]), hc]
    exact ⟨hrest.1, congrArg (_ :: ·) hrest.2⟩
  | case2 string n hz =>
    have hc := cond_run 0 n fun i => string.getD i 0
    simp only [Nat.zero_add, not_not.1 hz, ne_eq, not_true_eq_false, decide_false] at hc
    rw [unicodeToCharLog_last (not_not.1 hz), run_loop_left (by rw [hc]), hc]
    exact ⟨rfl, rfl⟩

/-- The array of `parse_obex_header`, which reads as zero behind its end, is narrowed as the
program narrows it. -/
theorem Traced.unicodeToChar_list (string : List UInt8) {turns : ℕ} (h : string.length ≤ turns) :
    let o := (unicodeToChar 0 turns).run fun i => string.getD i 0
    o.val.isSome = true ∧ writes o.trace = unicodeToCharLog string 0 ∧
      o.mem = fun i => (Irdadump.unicodeToChar string).getD i 0 := by
  obtain ⟨hval, hlog⟩ := Traced.loop_log string 0 h
  refine ⟨hval, hlog, ?_⟩
  rw [Irdadump.unicodeToChar, unicodeToCharLoop_log, ← hlog]
  exact run_mem _ _

end Irdadump
