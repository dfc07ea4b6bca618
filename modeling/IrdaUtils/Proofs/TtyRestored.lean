import IrdaUtils.Spec.Irattach

/-! `cleanup` puts the tty back. What the process knows about the tty it was given is the
invariant `Saved`: an attribute either still has its first value or was saved, and the line
discipline is saved behind the termios, so that putting it back may upset the termios. -/

namespace Irattach

open Calls

structure Saved (k : Kernel) (t : Tty) (s : Proc) : Prop where
  devfd : s.devfd ≠ -1
  initfdflags : s.initfdflags = t.flags
  flags : s.tty.flags &&& ~~~k.setflMask = t.flags &&& ~~~k.setflMask
  ldisc : (s.initdisc = -1 ∧ s.tty.ldisc = t.ldisc) ∨ (s.initdisc = t.ldisc ∧ s.termvalid ≠ -1)
  termios : (s.termvalid = -1 ∧ s.tty.termios = t.termios) ∨
    (s.termvalid ≠ -1 ∧ s.termsave = t.termios)

/-! ### Flags -/

theorem setfl_outside (m x arg : BitVec 32) : (x &&& ~~~m ||| arg &&& m) &&& ~~~m = x &&& ~~~m := by
  ext i hi
  simp only [BitVec.getElem_and, BitVec.getElem_or, BitVec.getElem_not]
  cases x[i] <;> cases m[i] <;> cases arg[i] <;> rfl

theorem setfl_back {m x y : BitVec 32} (h : x &&& ~~~m = y &&& ~~~m) :
    x &&& ~~~m ||| y &&& m = y := by
  rw [h]
  ext i hi
  simp only [BitVec.getElem_and, BitVec.getElem_or, BitVec.getElem_not]
  cases y[i] <;> cases m[i] <;> rfl

theorem Saved.setfl {k : Kernel} {t : Tty} {s : Proc} (h : Saved k t s) (arg : BitVec 32) :
    Saved k t { s with tty := s.tty.setfl k arg } :=
  ⟨h.devfd, h.initfdflags, (setfl_outside _ _ _).trans h.flags, h.ldisc, h.termios⟩

theorem Saved.fdflags {k : Kernel} {t : Tty} {s : Proc} (h : Saved k t s) (f : BitVec 32) :
    Saved k t { s with fdflags := f } :=
  ⟨h.devfd, h.initfdflags, h.flags, h.ldisc, h.termios⟩

/-! ### Phases of the setup -/

/-- Nothing but the flags has been saved or changed. -/
def Fresh (k : Kernel) (t : Tty) (s : Proc) : Prop :=
  Saved k t s ∧ s.initdisc = -1 ∧ s.termvalid = -1

def TermSaved (k : Kernel) (t : Tty) (s : Proc) : Prop :=
  Saved k t s ∧ s.initdisc = -1 ∧ s.termvalid ≠ -1

def AllSaved (k : Kernel) (t : Tty) (s : Proc) : Prop :=
  Saved k t s ∧ s.initdisc ≠ -1 ∧ s.termvalid ≠ -1

theorem Fresh.unchanged {k : Kernel} {t : Tty} {s : Proc} (h : Fresh k t s) :
    s.tty.ldisc = t.ldisc ∧ s.tty.termios = t.termios := by
  obtain ⟨hs, hd, hv⟩ := h
  constructor
  · rcases hs.ldisc with ⟨-, e⟩ | ⟨-, hne⟩
    · exact e
    · exact absurd hv hne
  · rcases hs.termios with ⟨-, e⟩ | ⟨hne, -⟩
    · exact e
    · exact absurd hv hne

theorem TermSaved.unchanged {k : Kernel} {t : Tty} {s : Proc} (h : TermSaved k t s) :
    s.tty.ldisc = t.ldisc ∧ s.termsave = t.termios := by
  obtain ⟨hs, hd, hv⟩ := h
  constructor
  · rcases hs.ldisc with ⟨-, e⟩ | ⟨e, -⟩
    · exact e
    · rw [hd] at e
      omega
  · rcases hs.termios with ⟨hno, -⟩ | ⟨-, e⟩
    · exact absurd hno hv
    · exact e

variable (k : Kernel) (t : Tty)

theorem start_fresh :
    Triple (Saved k t) (Fresh k t)
      ([clearNonblock, fcntlSetfl k Proc.fdflags .goesOn] ++ [other .ends, other .ends])
      (Fresh k t) := by
  refine Triple.imp (Triple.keeps ?_) fun s h => h.1
  intro c hc s ⟨hs, hd, hv⟩
  simp only [List.cons_append, List.nil_append, List.mem_cons, List.not_mem_nil, or_false] at hc
  rcases hc with rfl | rfl | rfl | rfl
  · exact ⟨hs.fdflags _, hd, hv⟩
  · exact ⟨hs.setfl _, hd, hv⟩
  · exact ⟨hs, hd, hv⟩
  · exact ⟨hs, hd, hv⟩

/-- The termios is copied before `termvalid` says so, and changed behind that. -/
theorem initIrdaLdisc_saves : Triple (Saved k t) (Fresh k t) initIrdaLdisc (TermSaved k t) := by
  have hget : Triple (Saved k t) (Fresh k t) [⟨fun s => { s with tios := s.tty.termios }, .ends⟩]
      (fun s => Fresh k t s ∧ s.tios = t.termios) := by
    refine Triple.call (fun s h => h.1) (fun s h => h.1.1) ?_ (by intro h; cases h)
    intro s h
    obtain ⟨hs, hd, hv⟩ := id h
    exact ⟨⟨⟨hs.devfd, hs.initfdflags, hs.flags, hs.ldisc, hs.termios⟩, hd, hv⟩, h.unchanged.2⟩
  have hcopy : Triple (Saved k t) (fun s => Fresh k t s ∧ s.tios = t.termios)
      [assign fun s => { s with termsave := s.tios }]
      (fun s => Fresh k t s ∧ s.termsave = t.termios) := by
    refine Triple.call (fun s h => h.1.1) (fun s h => h.1.1) ?_ (by intro h; cases h)
    intro s ⟨h, e⟩
    obtain ⟨hs, hd, hv⟩ := id h
    exact ⟨⟨⟨hs.devfd, hs.initfdflags, hs.flags, hs.ldisc, .inl ⟨hv, h.unchanged.2⟩⟩, hd, hv⟩, e⟩
  have hvalid : Triple (Saved k t) (fun s => Fresh k t s ∧ s.termsave = t.termios)
      [assign fun s => { s with termvalid := 0 }] (TermSaved k t) := by
    refine Triple.call (fun s h => h.1.1) (fun s h => h.1) ?_ (by intro h; cases h)
    intro s ⟨h, e⟩
    obtain ⟨hs, hd, hv⟩ := id h
    have hne : (0 : ℤ) ≠ -1 := by decide
    exact ⟨⟨hs.devfd, hs.initfdflags, hs.flags, .inl ⟨hd, h.unchanged.1⟩, .inr ⟨hne, e⟩⟩, hd, hne⟩
  have hset : Triple (Saved k t) (TermSaved k t)
      [assign fun s => { s with tios := ttyConfigure s.tios },
        ⟨fun s => { s with tty := s.tty.setattr s.tios }, .ends⟩] (TermSaved k t) := by
    refine Triple.imp (Triple.keeps ?_) fun s h => h.1
    intro c hc s h
    obtain ⟨hs, hd, hv⟩ := id h
    simp only [List.mem_cons, List.not_mem_nil, or_false] at hc
    rcases hc with rfl | rfl
    · exact ⟨⟨hs.devfd, hs.initfdflags, hs.flags, hs.ldisc, hs.termios⟩, hd, hv⟩
    · exact ⟨⟨hs.devfd, hs.initfdflags, hs.flags, hs.ldisc, .inr ⟨hv, h.unchanged.2⟩⟩, hd, hv⟩
  exact hget.append (hcopy.append (hvalid.append hset))

theorem establishIrda_saves :
    Triple (Saved k t) (TermSaved k t) (establishIrda k) (AllSaved k t) := by
  have hexcl : Triple (Saved k t) (TermSaved k t) [other .goesOn] (TermSaved k t) :=
    Triple.call (fun s h => h.1) (fun s h => h.1) (fun s h => h) (fun _ s h => h)
  have hget : Triple (Saved k t) (TermSaved k t)
      [⟨fun s => { s with initdisc := s.tty.ldisc }, .ends⟩] (AllSaved k t) := by
    refine Triple.call (fun s h => h.1) (fun s h => h.1) ?_ (by intro h; cases h)
    intro s h
    obtain ⟨hs, hd, hv⟩ := id h
    have hdisc : (s.tty.ldisc : ℤ) = t.ldisc := by rw [h.unchanged.1]
    exact ⟨⟨hs.devfd, hs.initfdflags, hs.flags, .inr ⟨hdisc, hv⟩, hs.termios⟩, by simp only; omega, hv⟩
  have hset : Triple (Saved k t) (AllSaved k t)
      [⟨fun s => { s with tty := s.tty.setd k nIrda }, .ends⟩] (AllSaved k t) := by
    refine Triple.call (fun s h => h.1) (fun s h => h.1) ?_ (by intro h; cases h)
    intro s ⟨hs, hd, hv⟩
    refine ⟨⟨hs.devfd, hs.initfdflags, hs.flags, ?_, ?_⟩, hd, hv⟩
    · rcases hs.ldisc with ⟨hno, -⟩ | hd'
      · exact absurd hno hd
      · exact .inr hd'
    · rcases hs.termios with ⟨hno, -⟩ | hv'
      · exact absurd hno hv
      · exact .inr hv'
  exact hexcl.append (hget.append hset)

theorem rest_allSaved :
    Triple (Saved k t) (AllSaved k t)
      ([other .never, fcntlSetfl k (fun s => s.fdflags ||| oNonblock) .ends] ++
        [other .ends, other .goesOn, other .goesOn, other .goesOn, other .ends])
      (AllSaved k t) := by
  refine Triple.imp (Triple.keeps ?_) fun s h => h.1
  intro c hc s ⟨hs, hd, hv⟩
  simp only [List.cons_append, List.nil_append, List.mem_cons, List.not_mem_nil, or_false] at hc
  rcases hc with rfl | rfl | rfl | rfl | rfl | rfl | rfl
  · exact ⟨hs, hd, hv⟩
  · exact ⟨hs.setfl _, hd, hv⟩
  all_goals exact ⟨hs, hd, hv⟩

/-- Every point of the setup. -/
theorem setup_saved : Triple (Saved k t) (Fresh k t) (setup k) (AllSaved k t) := by
  have h := (start_fresh k t).append ((initIrdaLdisc_saves k t).append
    ((establishIrda_saves k t).append (rest_allSaved k t)))
  simpa only [setup, startTty, List.append_assoc] using h

/-! ### Cleaning up -/

theorem Saved.restore_ldisc {k : Kernel} {t : Tty} {s : Proc} (h : Saved k t s) :
    Saved k t (if s.initdisc ≠ -1 then { s with tty := s.tty.setd k s.initdisc.toNat } else s) := by
  split_ifs with hd
  · rcases h.ldisc with ⟨hno, -⟩ | ⟨e, hv⟩
    · exact absurd hno hd
    · refine ⟨h.devfd, h.initfdflags, h.flags, .inr ⟨e, hv⟩, ?_⟩
      rcases h.termios with ⟨hno, -⟩ | hv'
      · exact absurd hno hv
      · exact .inr hv'
  · exact h

theorem Saved.restore_termios {k : Kernel} {t : Tty} {s : Proc} (h : Saved k t s) :
    Saved k t (if s.termvalid ≠ -1 then { s with tty := s.tty.setattr s.termsave } else s) := by
  split_ifs with hv
  · rcases h.termios with ⟨hno, -⟩ | ⟨-, e⟩
    · exact absurd hno hv
    · exact ⟨h.devfd, h.initfdflags, h.flags, h.ldisc, .inr ⟨hv, e⟩⟩
  · exact h

theorem restored_ldisc {k : Kernel} {t : Tty} {s : Proc} (h : Saved k t s) :
    (if s.initdisc ≠ -1 then { s with tty := s.tty.setd k s.initdisc.toNat } else s).tty.ldisc
      = t.ldisc := by
  split_ifs with hd
  · rcases h.ldisc with ⟨hno, -⟩ | ⟨e, -⟩
    · exact absurd hno hd
    · simp only [Tty.setd, e, Int.toNat_natCast]
  · rcases h.ldisc with ⟨-, e⟩ | ⟨e, -⟩
    · exact e
    · omega

theorem restored_termios {k : Kernel} {t : Tty} {s : Proc} (h : Saved k t s) :
    (if s.termvalid ≠ -1 then { s with tty := s.tty.setattr s.termsave } else s).tty.termios
      = t.termios := by
  rcases h.termios with ⟨hv, e⟩ | ⟨hv, e⟩
  · rw [if_neg (not_not_intro hv)]
    exact e
  · rw [if_pos hv]
    exact e

theorem unblock_keeps_saved : Triple (Saved k t) (Saved k t) (unblock k) (Saved k t) := by
  refine Triple.keeps ?_
  intro c hc s h
  simp only [unblock, List.mem_cons, List.not_mem_nil, or_false] at hc
  rcases hc with rfl | rfl | rfl
  · exact h
  · exact h.fdflags _
  · exact h.setfl _

theorem restore_keeps_saved : Triple (Saved k t) (Saved k t) (restore k) (Saved k t) := by
  refine Triple.keeps ?_
  intro c hc s h
  simp only [restore, List.mem_cons, List.not_mem_nil, or_false] at hc
  rcases hc with rfl | rfl | rfl
  · exact h.restore_ldisc
  · exact h.restore_termios
  · exact h.setfl _

theorem reached_saved {s₀ s : Proc} (h₀ : Fresh k t s₀) (h : Reached k s₀ s) : Saved k t s := by
  induction h with
  | setup hr => exact (setup_saved k t _ h₀).1 _ _ hr
  | again _ hr ih => exact ((unblock_keeps_saved k t).append (restore_keeps_saved k t) _ ih).1 _ _ hr

/-- The restoring calls, from any state that knows the first values. -/
theorem restore_tty {s : Proc} (h : Saved k t s) : (runAll (restore k) s).tty = t := by
  have h1 := h.restore_ldisc
  have h2 := h1.restore_termios
  have hl := restored_ldisc h
  have ht := restored_termios h1
  simp only [runAll, restore, List.foldl_cons, List.foldl_nil, fcntlSetfl]
  generalize (if s.initdisc ≠ -1 then { s with tty := s.tty.setd k s.initdisc.toNat } else s) = s1
    at *
  have hl' : (if s1.termvalid ≠ -1 then { s1 with tty := s1.tty.setattr s1.termsave }
      else s1).tty.ldisc = t.ldisc := by
    split_ifs
    · exact hl
    · exact hl
  generalize (if s1.termvalid ≠ -1 then { s1 with tty := s1.tty.setattr s1.termsave } else s1) = s2
    at *
  have hf : (s2.tty.setfl k s2.initfdflags).flags = t.flags := by
    rw [h2.initfdflags]
    exact setfl_back h2.flags
  calc s2.tty.setfl k s2.initfdflags
      = ⟨(s2.tty.setfl k s2.initfdflags).flags, s2.tty.ldisc, s2.tty.termios⟩ := rfl
    _ = t := by rw [hf, hl', ht]

/-- No call of `cleanup` touches the line discipline or the termios while it is unsaved. -/
theorem cleanup_unsaved {s : Proc} (h : Saved k t s) :
    ∀ rest s', Reach (cleanup k s) s rest s' →
      (s.initdisc = -1 → s'.tty.ldisc = s.tty.ldisc) ∧
        (s.termvalid = -1 → s'.tty.termios = s.tty.termios) := by
  let P : Proc → Prop := fun s' => s'.initdisc = s.initdisc ∧ s'.termvalid = s.termvalid ∧
    (s.initdisc = -1 → s'.tty.ldisc = s.tty.ldisc) ∧
    (s.termvalid = -1 → s'.tty.termios = s.tty.termios)
  have hdisc : s.termvalid = -1 → s.initdisc = -1 := by
    intro hv
    rcases h.ldisc with ⟨hd, -⟩ | ⟨-, hne⟩
    · exact hd
    · exact absurd hv hne
  have hkeeps : Triple P P (unblock k ++ restore k ++ [closeTty]) P := by
    refine Triple.keeps ?_
    rintro c hc s' ⟨hd, hv, hl, ht⟩
    simp only [unblock, restore, List.cons_append, List.nil_append, List.mem_cons,
      List.not_mem_nil, or_false] at hc
    rcases hc with rfl | rfl | rfl | rfl | rfl | rfl | rfl
    · exact ⟨hd, hv, hl, ht⟩
    · exact ⟨hd, hv, hl, ht⟩
    · exact ⟨hd, hv, hl, ht⟩
    · simp only
      split_ifs with h1
      · rw [hd] at h1
        exact ⟨hd, hv, fun h0 => absurd h0 h1, fun h0 => absurd (hdisc h0) h1⟩
      · exact ⟨hd, hv, hl, ht⟩
    · simp only
      split_ifs with h1
      · rw [hv] at h1
        exact ⟨hd, hv, hl, fun h0 => absurd h0 h1⟩
      · exact ⟨hd, hv, hl, ht⟩
    · exact ⟨hd, hv, hl, ht⟩
    · exact ⟨hd, hv, hl, ht⟩
  intro rest s' hr
  rw [cleanup, if_pos h.devfd] at hr
  exact ((hkeeps s ⟨rfl, rfl, fun _ => rfl, fun _ => rfl⟩).1 rest s' hr).2.2

/-- Wherever the setup fails or a signal comes in, `cleanup` gives back the tty as `open_tty`
found it when its restoring calls succeed, and leaves alone what was not saved. -/
theorem cleanup_gives_back_tty (fd : ℤ) (hfd : 0 ≤ fd) (termsave tios : Termios) (s : Proc)
    (h : Reached k (.opened fd termsave tios t) s) :
    cleanup k s = unblock k ++ restore k ++ [closeTty] ∧
      (∀ s', Reach (unblock k) s [] s' → (runAll (restore k) s').tty = t) ∧
      s.initfdflags = t.flags ∧
      ∀ rest s', Reach (cleanup k s) s rest s' →
        (s.initdisc = -1 → s'.tty.ldisc = s.tty.ldisc) ∧
          (s.termvalid = -1 → s'.tty.termios = s.tty.termios) := by
  have hfresh : Fresh k t (.opened fd termsave tios t) := by
    refine ⟨⟨?_, rfl, rfl, .inl ⟨rfl, rfl⟩, .inl ⟨rfl, rfl⟩⟩, rfl, rfl⟩
    change fd ≠ -1
    omega
  have hs := reached_saved k t hfresh h
  refine ⟨if_pos hs.devfd, ?_, hs.initfdflags, cleanup_unsaved k t hs⟩
  intro s' hr
  exact restore_tty k t ((unblock_keeps_saved k t s hs).2 s' hr)

/-- A tty opened with `O_RDWR | O_NONBLOCK`, under a kernel that writes the line discipline
into the termios. -/
def sampleTty : Tty := ⟨0x802, 0, ⟨0x500, 5, 0xbf, 0x8a3b, 0, fun _ => 0, 0xf, 0xf⟩⟩

def sampleKernel : Kernel := ⟨0x40c00 ||| 0x2000, fun d tios => { tios with cLine := UInt8.ofNat d }⟩

def sampleOpened : Proc := .opened 3 sampleTty.termios sampleTty.termios sampleTty

theorem cleanup_gives_back_sampleTty :
    (runAll (setup sampleKernel) sampleOpened).tty ≠ sampleTty ∧
      (runAll (restore sampleKernel) (runAll (unblock sampleKernel)
        (runAll (setup sampleKernel) sampleOpened))).tty = sampleTty := by
  refine ⟨by decide, ?_⟩
  exact (cleanup_gives_back_tty sampleKernel sampleTty 3 (by decide) _ _ _
    (.setup (reach_runAll _ _))).2.1 _ (reach_runAll _ _)

end Irattach
