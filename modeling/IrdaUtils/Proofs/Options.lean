import IrdaUtils.Lib.Runs
import IrdaUtils.Spec.Options

/-! Which options decide which variable. Every option but one sets the variable that it is
there for and nothing else; `-s` goes on into the case of `-t`. -/

namespace Irdadump

/-- The variables behind a command line of options that do not exit. -/
def Vars.after (opts : List Opt) : Vars := opts.foldl Vars.option Vars.init

theorem optionLoop_opts (opts : List Opt) :
    ∀ vs, optionLoop vs (opts.map .opt) = .ok (opts.foldl Vars.option vs) := by
  induction opts with
  | nil => intro vs; rfl
  | cons o opts ih =>
    intro vs
    rw [List.map_cons, optionLoop, ih, List.foldl_cons]

/-! ### One option -/

/-- The option forces TinyTP: `-t`, and `-s` without meaning to. -/
def Opt.forces : Opt → Bool
  | .s _ => true
  | .t => true
  | _ => false

theorem option_other (vs : Vars) {v : Var} {o : Opt} (h : o.sets v = false)
    (hf : v = .forceTtp → o.forces = false) : (vs.option o).get v = vs.get v := by
  cases o with
  | s optarg =>
    cases v with
    | forceTtp => cases hf rfl
    | snaplen => cases h
    | _ => rfl
  | _ => cases v <;> first | rfl | cases h

theorem option_own (vs vs' : Vars) {v : Var} {o : Opt} (h : o.sets v = true) :
    (vs.option o).get v = (vs'.option o).get v := by
  cases o <;> cases v <;> first | rfl | cases h

theorem option_forceTtp (vs : Vars) (o : Opt) :
    (vs.option o).cfg.forceTtp = (vs.cfg.forceTtp || o.forces) := by
  cases o with
  | s optarg => exact (Bool.or_true _).symm
  | t => exact (Bool.or_true _).symm
  | _ => exact (Bool.or_false _).symm

theorem positiveOr_pos {default : ℕ} (h : 0 < default) (optarg : List UInt8) :
    0 < positiveOr default optarg := by
  unfold positiveOr
  split_ifs with hle
  · exact h
  · omega

theorem option_positive {vs : Vars} (h : 0 < vs.cfg.snapcols ∧ 0 < vs.cfg.snaplen) (o : Opt) :
    0 < (vs.option o).cfg.snapcols ∧ 0 < (vs.option o).cfg.snaplen := by
  cases o with
  | c optarg => exact ⟨positiveOr_pos (by decide) optarg, h.2⟩
  | s optarg => exact ⟨h.1, positiveOr_pos (by decide) optarg⟩
  | _ => exact h

/-! ### Command lines -/

theorem after_positive (opts : List Opt) :
    0 < (Vars.after opts).cfg.snapcols ∧ 0 < (Vars.after opts).cfg.snaplen := by
  refine (Runs.along_trivial Vars.option opts Vars.init).inv
    (fun vs => 0 < vs.cfg.snapcols ∧ 0 < vs.cfg.snaplen) ?_ (by decide)
  intro vs o h _
  exact option_positive h o

theorem after_other {v : Var} (hv : v ≠ .forceTtp) (opts : List Opt) :
    (Vars.after opts).get v = (Vars.after (opts.filter (Opt.sets v))).get v := by
  refine Runs.foldl_filter (Vars.get v) (Opt.sets v) ?_ ?_ opts _ _ rfl
  · intro vs o h
    exact option_other vs h fun e => absurd e hv
  · intro vs vs' o h _
    exact option_own vs vs' h

theorem foldl_forceTtp (opts : List Opt) : ∀ vs : Vars,
    (opts.foldl Vars.option vs).cfg.forceTtp = (vs.cfg.forceTtp || opts.any Opt.forces) := by
  induction opts with
  | nil => intro vs; exact (Bool.or_false _).symm
  | cons o opts ih =>
    intro vs
    rw [List.foldl_cons, ih, option_forceTtp, List.any_cons, Bool.or_assoc]

theorem after_forceTtp (opts : List Opt) :
    (Vars.after opts).cfg.forceTtp = opts.any Opt.forces := by
  rw [Vars.after, foldl_forceTtp]
  rfl

theorem sets_forceTtp_iff (o : Opt) : o.sets .forceTtp = true ↔ o = .t := by
  cases o <;> simp [Opt.sets, Opt.documented]

theorem forces_iff (o : Opt) : o.forces = true ↔ (∃ optarg, o = .s optarg) ∨ o = .t := by
  cases o <;> simp [Opt.forces]

/-- Behind the options of its own alone, TinyTP is forced when `-t` is given. -/
theorem own_forceTtp (opts : List Opt) :
    (Vars.after (opts.filter (Opt.sets .forceTtp))).cfg.forceTtp = true ↔ .t ∈ opts := by
  rw [after_forceTtp, List.any_eq_true]
  constructor
  · rintro ⟨o, ho, -⟩
    obtain ⟨hmem, hset⟩ := List.mem_filter.1 ho
    rwa [(sets_forceTtp_iff o).1 hset] at hmem
  · intro h
    exact ⟨.t, List.mem_filter.2 ⟨h, rfl⟩, rfl⟩

theorem forceTtp_right_iff (opts : List Opt) :
    (Vars.after opts).get .forceTtp =
        (Vars.after (opts.filter (Opt.sets .forceTtp))).get .forceTtp ↔
      (∀ optarg, .s optarg ∉ opts) ∨ .t ∈ opts := by
  have hget : ∀ vs vs' : Vars, vs.get .forceTtp = vs'.get .forceTtp ↔
      (vs.cfg.forceTtp = true ↔ vs'.cfg.forceTtp = true) := by
    intro vs vs'
    rw [← Bool.eq_iff_iff]
    exact ⟨Value.flag.inj, congrArg Value.flag⟩
  rw [hget, own_forceTtp, after_forceTtp, List.any_eq_true]
  constructor
  · intro h
    by_cases ht : Opt.t ∈ opts
    · exact .inr ht
    · exact .inl fun optarg hs => ht (h.1 ⟨.s optarg, hs, rfl⟩)
  · intro h
    refine ⟨?_, fun ht => ⟨.t, ht, rfl⟩⟩
    rintro ⟨o, ho, hforce⟩
    rcases (forces_iff o).1 hforce with ⟨optarg, rfl⟩ | rfl
    · exact h.elim (fun hno => absurd ho (hno optarg)) id
    · exact ho

/-- Every variable has the value that its own option gives it, and the two numbers are
positive: exactly when `-s` is not given, or `-t` is given as well. -/
theorem options_independent_iff (opts : List Opt) :
    (∃ vs, optionLoop Vars.init (opts.map .opt) = .ok vs ∧
      (∀ v, vs.get v = (Vars.after (opts.filter (Opt.sets v))).get v) ∧
      0 < vs.cfg.snapcols ∧ 0 < vs.cfg.snaplen) ↔
      (∀ optarg, .s optarg ∉ opts) ∨ .t ∈ opts := by
  rw [← forceTtp_right_iff, optionLoop_opts]
  constructor
  · rintro ⟨vs, e, h, -⟩
    cases e
    exact h .forceTtp
  · intro h
    refine ⟨Vars.after opts, rfl, ?_, after_positive opts⟩
    intro v
    by_cases hv : v = .forceTtp
    · rw [hv]
      exact h
    · exact after_other hv opts

/-- With `-s 64` alone TinyTP is forced. -/
theorem snaplen_forces_ttp :
    (Vars.after [.s [0x36, 0x34]]).get .forceTtp ≠
      (Vars.after ([.s [0x36, 0x34]].filter (Opt.sets .forceTtp))).get .forceTtp := by
  decide

end Irdadump
