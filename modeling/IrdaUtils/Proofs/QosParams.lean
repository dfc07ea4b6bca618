import IrdaUtils.Proofs.IrcommParams
import IrdaUtils.Spec.Irdadump

/-! The parameters of `SNRM` and `UA` frames. The loop of `parse_irlap_params` looks up the
highest bit of each value in a table, and the tables are shorter than the values allow. The
length of the field reaches the loop in eight bits. -/

namespace Irdadump
open Memory Tlv

/-! ### The highest bit -/

theorem msbLoop_lt_iff (w : ℕ) {j : ℕ} (hj : 0 < j) (k : ℕ) :
    msbLoop w k < j ↔ ∀ i, j ≤ i → i ≤ k → w.testBit i = false := by
  induction k with
  | zero => exact iff_of_true hj fun i h1 h2 => by omega
  | succ k ih =>
    rw [msbLoop]
    by_cases hb : w.testBit (k + 1) = true
    · rw [if_pos hb]
      constructor
      · intro h i h1 h2
        omega
      · intro h
        by_contra hn
        rw [h (k + 1) (by omega) le_rfl] at hb
        cases hb
    · rw [if_neg hb, ih]
      constructor
      · intro h i h1 h2
        rcases Nat.lt_or_eq_of_le h2 with h3 | rfl
        · exact h i h1 (by omega)
        · exact Bool.eq_false_iff.2 hb
      · intro h i h1 h2
        exact h i h1 (by omega)

/-- The index of the highest bit, for the words that the loop can hold. -/
theorem msbIndex_lt_iff {w j : ℕ} (hj : 0 < j) (hw : w < 2 ^ 16) : msbIndex w < j ↔ w < 2 ^ j := by
  have hpos : 1 < 2 ^ j := Nat.one_lt_two_pow hj.ne'
  have hone : w < 2 ^ j ↔ (if w = 0 then 1 else w) < 2 ^ j := by
    split_ifs with h
    · exact iff_of_true (by omega) hpos
    · exact Iff.rfl
  have hlt : (if w = 0 then 1 else w) < 2 ^ 16 := by split_ifs <;> omega
  rw [msbIndex, msbLoop_lt_iff _ hj, hone]
  constructor
  · intro h
    refine Nat.lt_pow_two_of_testBit _ fun i hi => ?_
    rcases Nat.lt_or_ge 15 i with h15 | h15
    · exact Nat.testBit_lt_two_pow (lt_of_lt_of_le hlt (Nat.pow_le_pow_right (by norm_num) h15))
    · exact h i hi h15
  · intro h i hi _
    exact Nat.testBit_lt_two_pow (lt_of_lt_of_le h (Nat.pow_le_pow_right (by norm_num) hi))

/-! ### The loop -/

theorem irlapParam_text (env : Env) (s : St) (n : ℕ) :
    (irlapParam env s n).str = s.str ++ lookupText env (qosLookupAt s.byte n) ∧
      (irlapParam env s n).buf = s.buf := by
  have happend : ∀ label pv array unit, (appendQos env s label pv array unit).str =
      s.str ++ (label ++ fmtInt32 (byteValue env pv array) ++ unit) ∧
      (appendQos env s label pv array unit).buf = s.buf := by
    intro label pv array unit
    unfold appendQos
    simp only
    split_ifs <;> exact ⟨rfl, rfl⟩
  unfold irlapParam qosLookupAt qosLookup
  simp only
  split_ifs
  · exact happend _ _ _ _
  · exact happend _ _ _ _
  · cases qosTable (s.byte n &&& 0x7f).toNat with
    | none => exact ⟨by simp [lookupText], rfl⟩
    | some t => exact happend _ _ _ _

/-- The loop adds the texts of its lookups. -/
theorem irlapParamsLoop_text (env : Env) (clen : ℕ) (s : St) (n : ℕ) :
    (irlapParamsLoop env clen s n).str =
      s.str ++ String.join ((visits s.byte clen n).map fun n => lookupText env (qosLookupAt s.byte n)) := by
  fun_induction irlapParamsLoop env clen s n with
  | case1 s n hn ih =>
    obtain ⟨hstr, hbuf⟩ := irlapParam_text env s n
    rw [ih, hstr, byte_of_buf hbuf, visits_next hn, List.map_cons, String.join_cons, String.append_assoc]
  | case2 s n hn =>
    rw [visits_done hn]
    simp

theorem join_lookups (env : Env) (m : Mem) (ns : List ℕ) :
    String.join (ns.map fun n => lookupText env (qosLookupAt m n)) =
      String.join ((ns.filterMap (qosLookupAt m)).map (·.text env)) := by
  induction ns with
  | nil => rfl
  | cons n ns ih =>
    rw [List.map_cons, String.join_cons, ih]
    cases h : qosLookupAt m n with
    | none => rw [List.filterMap_cons_none h, lookupText, String.empty_append]
    | some l => rw [List.filterMap_cons_some h, List.map_cons, String.join_cons, lookupText]

/-! ### The frames -/

theorem parseIField_str (env : Env) (n : ℕ) (s : St) :
    (parseIField env n s).str = s.str ++ fieldText env (s.pull n) := by
  unfold parseIField fieldText
  simp only
  by_cases h : (s.pull n).buf.len = 0
  · rw [if_neg (not_not.2 h), if_pos h]
    simp [St.pull]
  · rw [if_pos h, if_neg h, parseIrlapParams]
    change (irlapParamsLoop env _ _ 0).str = _
    rw [irlapParamsLoop_text, join_lookups, UInt8.toNat_ofNat']
    simp only [St.append, String.append_assoc]
    rfl

/-- Nothing is behind the fixed part of a frame that is cut off there. -/
theorem fieldText_cut (env : Env) (s : St) (n : ℕ) (t : String) :
    fieldText env (((s.cut n).append t).pull n) = "" := by
  have h : (((s.cut n).append t).pull n).buf.len = 0 := by
    rw [St.len_pull (show n ≤ n from le_rfl)]
    exact Nat.sub_self n
  rw [fieldText, if_pos h]

theorem snrmFrame_str (env : Env) (caddr cmd pf : UInt8) (type : ℤ) (s : St) :
    (parseSnrmFrame env caddr cmd pf type s).str =
      (parseSnrmFrame env caddr cmd pf type (s.cut 11)).str ++ fieldText env (s.pull 11) := by
  unfold parseSnrmFrame
  simp only
  rw [parseIField_str, parseIField_str]
  split_ifs
  · rw [fieldText_cut, String.append_empty]
    rfl
  · rw [fieldText_cut, String.append_empty]
    rfl

theorem uaFrame_str (env : Env) (caddr cmd pf : UInt8) (type : ℤ) (s : St) :
    (parseUaFrame env caddr cmd pf type s).str =
      (parseUaFrame env caddr cmd pf type (s.cut 10)).str ++ fieldText env (s.pull 10) := by
  unfold parseUaFrame
  simp only
  rw [parseIField_str, parseIField_str]
  split_ifs
  · rw [fieldText_cut, String.append_empty]
    rfl
  · rw [fieldText_cut, String.append_empty]
    rfl

theorem irlapFrame_snrm (env : Env) (type : ℤ) {s : St} (hk : QosFrame.snrm.Heads s) :
    parseIrlapFrame env type s = parseSnrmFrame env (s.byte 0 &&& cbroadcast)
      (s.byte 0 &&& cmdFrame) ((s.byte 1 &&& pfBit) >>> 4) type s := by
  obtain ⟨hcmd, hctrl⟩ := hk
  unfold parseIrlapFrame
  simp only [hctrl]
  rw [if_neg (by decide), if_neg (by decide), parseUFrame, if_neg (by decide), if_pos rfl, if_pos hcmd]

theorem irlapFrame_ua (env : Env) (type : ℤ) {s : St} (hk : QosFrame.ua.Heads s) :
    parseIrlapFrame env type s = parseUaFrame env (s.byte 0 &&& cbroadcast)
      (s.byte 0 &&& cmdFrame) ((s.byte 1 &&& pfBit) >>> 4) type s := by
  have hctrl : s.byte 1 &&& ~~~pfBit = uaRsp := hk
  unfold parseIrlapFrame
  simp only [hctrl]
  rw [if_neg (by decide), if_neg (by decide), parseUFrame, if_neg (by decide), if_neg (by decide),
    if_neg (by decide), if_neg (by decide), if_neg (by decide), if_pos rfl]

/-- The line of a frame is the line without its information field, and the lookups. -/
theorem qosFrame_str (env : Env) (type : ℤ) {k : QosFrame} {s : St} (hk : k.Heads s) :
    (parseIrlapFrame env type s).str =
      (parseIrlapFrame env type (s.cut k.fixed)).str ++ fieldText env (s.pull k.fixed) := by
  cases k with
  | snrm =>
    rw [irlapFrame_snrm env type hk, irlapFrame_snrm env type (s := s.cut QosFrame.snrm.fixed) hk]
    exact snrmFrame_str env _ _ _ type s
  | ua =>
    rw [irlapFrame_ua env type hk, irlapFrame_ua env type (s := s.cut QosFrame.ua.fixed) hk]
    exact uaFrame_str env _ _ _ type s

/-- An `SNRM` command with the field `ps`. -/
def snrmFrame (ps : List Param) : St :=
  packet ([0xff, 0x93, 1, 0, 0, 0, 2, 0, 0, 0, 0x1c] ++ encode ps)

theorem snrmFrame_heads (ps : List Param) : QosFrame.snrm.Heads (snrmFrame ps) :=
  ⟨show (0xff : UInt8) &&& cmdFrame ≠ 0 by decide, show (0x93 : UInt8) &&& ~~~pfBit = snrmCmd by decide⟩

theorem snrmFrame_bytes (ps : List Param) :
    ∃ header, header.length = QosFrame.snrm.fixed ∧ (snrmFrame ps).buf.bytes = header ++ encode ps :=
  ⟨[0xff, 0x93, 1, 0, 0, 0, 2, 0, 0, 0, 0x1c], rfl, packet_bytes _⟩

/-- A baud rate and a window size. -/
def shortField : List Param := [⟨0x01, [0x3e, 0x01], by decide⟩, ⟨0x84, [0x01], by decide⟩]

/-! ### Lookups in range -/

theorem index_lt_iff {l : QosLookup} (h0 : 0 < l.array.length) (hpv : l.pv < 2 ^ 16) :
    l.index < l.array.length ↔ l.pv < 2 ^ l.array.length := msbIndex_lt_iff h0 hpv

/-- The lookup of a value of one byte. -/
theorem byte_index_lt_iff (label unit : String) (b : UInt8) {array : List ℕ} (h0 : 0 < array.length) :
    QosLookup.index ⟨label, b.toNat, array, unit⟩ < array.length ↔ b.toNat < 2 ^ array.length := by
  have hb := b.toNat_lt
  exact index_lt_iff (l := ⟨label, b.toNat, array, unit⟩) h0 (by simp only; omega)

/-- The lookup of a baud rate, which has a second byte or not. -/
theorem baud_index_lt_iff (pl : ℕ) (b0 b1 : UInt8) :
    QosLookup.index ⟨"Baud Rate=", if 2 ≤ pl then b0.toNat + b1.toNat * 256 else b0.toNat, baudRates,
        "bps "⟩ < baudRates.length ↔ (2 ≤ pl → b1.toNat < 4) := by
  have h0 := b0.toNat_lt
  have h1 := b1.toNat_lt
  rw [index_lt_iff (show 0 < baudRates.length by decide) (by simp only; split_ifs <;> omega)]
  change (if 2 ≤ pl then b0.toNat + b1.toNat * 256 else b0.toNat) < 2 ^ 10 ↔ _
  split_ifs <;> omega

/-- One lookup is in range, by the bits of its value. The tables with eight entries have one
for every bit. -/
theorem lookup_in_range_iff (m : Mem) (n : ℕ) :
    (∀ l, qosLookupAt m n = some l → l.index < l.array.length) ↔ NoReservedBits m n := by
  have h2 := (m (n + 2)).toNat_lt
  unfold qosLookupAt qosLookup NoReservedBits
  generalize (m n &&& 0x7f).toNat = pi
  simp only [UInt8.lt_iff_toNat_lt]
  by_cases hb : pi = piBaudRate
  · subst hb
    rw [if_pos rfl]
    simp only [Option.some.injEq, forall_eq']
    rw [baud_index_lt_iff]
    constructor
    · intro h
      exact ⟨fun e => absurd e (by decide), fun e => absurd e (by decide), fun _ => h⟩
    · intro h
      exact h.2.2 trivial
  · have hfull : ∀ {label unit : String} {array : List ℕ}, array.length = 8 → pi ≠ piMaxTurnTime →
        pi ≠ piDataSize → (QosLookup.index ⟨label, (m (n + 2)).toNat, array, unit⟩ < array.length ↔
          (pi = piMaxTurnTime → (m (n + 2)).toNat < (16 : UInt8).toNat) ∧
            (pi = piDataSize → (m (n + 2)).toNat < (64 : UInt8).toNat) ∧
            (pi = piBaudRate → 2 ≤ (m (n + 1)).toNat → (m (n + 3)).toNat < (4 : UInt8).toNat)) := by
      intro label unit array h8 hmax hdata
      rw [byte_index_lt_iff _ _ _ (by omega), h8]
      exact iff_of_true h2 ⟨fun h => absurd h hmax, fun h => absurd h hdata, fun h => absurd h hb⟩
    rw [if_neg hb]
    unfold qosTable
    split_ifs with hmax hdata hwin hbofs hmin hdisc
    all_goals simp only [Option.map_some, Option.map_none, Option.some.injEq, forall_eq']
    · rw [byte_index_lt_iff _ _ _ (by decide)]
      simp [hmax, piMaxTurnTime, piDataSize, piBaudRate, maxTurnTimes]
    · rw [byte_index_lt_iff _ _ _ (by decide)]
      simp [hdata, piMaxTurnTime, piDataSize, piBaudRate, dataSizes]
    · exact hfull rfl hmax hdata
    · exact hfull rfl hmax hdata
    · exact hfull rfl hmax hdata
    · exact hfull rfl hmax hdata
    · simp [hmax, hdata, hb]

/-- The tables are indexed in range exactly when no parameter of the field has one of the
bits set that they have no entries for. -/
theorem qos_lookups_in_range_iff (env : Env) (type : ℤ) (k : QosFrame) (s : St) (hk : k.Heads s) :
    (parseIrlapFrame env type s).str =
        (parseIrlapFrame env type (s.cut k.fixed)).str ++ fieldText env (s.pull k.fixed) ∧
      ((∀ l ∈ fieldLookups (s.pull k.fixed), l.index < l.array.length) ↔
        ∀ n ∈ visits (s.pull k.fixed).byte ((s.pull k.fixed).buf.len % 256) 0,
          NoReservedBits (s.pull k.fixed).byte n) := by
  refine ⟨qosFrame_str env type hk, ?_⟩
  simp only [fieldLookups, qosLookups, List.mem_filterMap, forall_exists_index, and_imp]
  constructor
  · intro h n hn
    exact (lookup_in_range_iff _ n).1 fun l hl => h l n hn hl
  · intro h l n hn hl
    exact (lookup_in_range_iff _ n).2 (h n hn) l hl

/-- The loop over the field of an `SNRM` command starts at its parameters. -/
theorem snrmFrame_visits {ps : List Param} (hlt : (encode ps).length < 256) :
    visits ((snrmFrame ps).pull 11).byte (((snrmFrame ps).pull 11).buf.len % 256) 0 =
      (starts 0 ps).map Prod.fst := by
  have hrest : ((snrmFrame ps).pull 11).buf.bytes = encode ps :=
    pull_rest [0xff, 0x93, 1, 0, 0, 0, 2, 0, 0, 0, 0x1c] (packet_bytes _)
  rw [← bytes_length, hrest, Nat.mod_eq_of_lt hlt,
    visits_encode (lies_of_bytes hrest) (by rw [Nat.zero_add]), List.filter_eq_self.2]
  intro x hx
  have h := end_le_of_mem_starts hx
  unfold Param.size at h
  simp only [decide_eq_true_eq]
  omega

theorem qos_lookups_in_range_short : QosFrame.snrm.Heads (snrmFrame shortField) ∧
    ∀ l ∈ fieldLookups ((snrmFrame shortField).pull 11), l.index < l.array.length := by
  refine ⟨snrmFrame_heads _, ?_⟩
  refine (qos_lookups_in_range_iff (Frame.ofBytes 1 []).env 1 .snrm (snrmFrame shortField)
    (snrmFrame_heads _)).2.2 ?_
  rw [show QosFrame.snrm.fixed = 11 from rfl, snrmFrame_visits (by decide)]
  decide

/-- A maximum turn time with the lowest of the reserved bits. -/
def reservedField : List Param := [⟨0x02, [0x10], by decide⟩]

/-- The table of the maximum turn times has four entries. -/
theorem reserved_bit_out_of_range :
    ¬ ∀ (k : QosFrame) (s : St), k.Heads s →
      ∀ l ∈ fieldLookups (s.pull k.fixed), l.index < l.array.length := by
  intro h
  have hlookups : fieldLookups ((snrmFrame reservedField).pull 11) =
      [⟨"Max Turn Time=", 16, maxTurnTimes, "ms "⟩] := by
    rw [fieldLookups, qosLookups, snrmFrame_visits (by decide)]
    rfl
  have hlt := h .snrm (snrmFrame reservedField) (snrmFrame_heads _) _
    (by rw [show QosFrame.snrm.fixed = 11 from rfl, hlookups]; exact List.mem_singleton_self _)
  exact absurd hlt (by decide)

/-! ### Whole fields -/

theorem qosTable_label {pi : ℕ} {t : String × List ℕ × String} (h : qosTable pi = some t) :
    t.1 ≠ "" := by
  unfold qosTable at h
  split_ifs at h <;> cases h <;> decide

theorem qosKnown_eq_true (p : Param) :
    qosKnown p = true ↔ paramId p = piBaudRate ∨ (qosTable (paramId p)).isSome = true := by
  simp [qosKnown]

theorem qosRender_eq_empty (env : Env) (p : Param) : qosRender env p = "" ↔ qosKnown p = false := by
  have htext : ∀ l : QosLookup, l.label ≠ "" → lookupText env (some l) ≠ "" := by
    intro l hl h
    rw [lookupText, QosLookup.text, String.append_eq_empty_iff, String.append_eq_empty_iff] at h
    exact hl h.1.1
  rw [← Bool.not_eq_true, qosKnown_eq_true]
  unfold qosRender qosLookup
  by_cases hb : paramId p = piBaudRate
  · rw [if_pos hb]
    exact iff_of_false (htext _ (show "Baud Rate=" ≠ "" by decide)) (not_not.2 (Or.inl hb))
  · rw [if_neg hb]
    cases ht : qosTable (paramId p) with
    | none => exact iff_of_true rfl (by simp [hb])
    | some t => exact iff_of_false (htext _ (qosTable_label ht)) (not_not.2 (Or.inr rfl))

/-- A complete parameter is looked up by its own bytes. -/
theorem qosLookupAt_eq {m : Mem} {n : ℕ} {p : Param} (hp : Lies m n p.encode) (hc : QosComplete p) :
    qosLookupAt m n =
      qosLookup (paramId p) p.value.length (p.value.getD 0 0) (p.value.getD 1 0) := by
  have hlen : (m (n + 1)).toNat = p.value.length := by
    rw [hp.byte (by simp [Param.encode])]
    simp [Param.encode, Nat.mod_eq_of_lt p.fits]
  rw [qosLookupAt, param_id hp, hlen]
  change qosLookup (paramId p) _ _ _ = _
  by_cases hk : qosKnown p = true
  · have h1 := hc hk
    rw [show m (n + 2) = p.value.getD 0 0 from value_byte hp h1]
    unfold qosLookup
    by_cases h2 : 2 ≤ p.value.length
    · rw [show m (n + 3) = p.value.getD 1 0 from value_byte hp h2]
    · simp only [if_neg h2]
  · rw [qosKnown_eq_true, not_or, Option.not_isSome_iff_eq_none] at hk
    unfold qosLookup
    rw [if_neg hk.1, if_neg hk.1, hk.2]
    rfl

theorem encode_length_pos {ps : List Param} (h : ps ≠ []) : (encode ps).length ≠ 0 := by
  cases ps with
  | nil => exact absurd rfl h
  | cons p ps => simp [encode_cons, Param.size]

/-- A QoS field is shown as a whole exactly when every known parameter starts below its
length modulo 256. -/
theorem qos_shown_iff (env : Env) (type : ℤ) {k : QosFrame} {s : St} {ps : List Param}
    (h : QosField k s ps) :
    QosShown env type k s ps ↔
      ∀ x ∈ starts 0 ps, qosKnown x.2 = true → x.1 < (encode ps).length % 256 := by
  obtain ⟨header, hfixed, hbytes⟩ := h.bytes
  have hrest : (s.pull k.fixed).buf.bytes = encode ps := by
    rw [← hfixed]
    exact pull_rest header hbytes
  have hlen : (s.pull k.fixed).buf.len = (encode ps).length := by rw [← bytes_length, hrest]
  have hlies := lies_of_bytes hrest
  have hshown := shown_iff qosKnown (qosRender env)
    (fun n => lookupText env (qosLookupAt (s.pull k.fixed).byte n)) hlies
    (show (encode ps).length % 256 ≤ 0 + (encode ps).length by
      rw [Nat.zero_add]
      exact Nat.mod_le _ _)
    (qosRender_eq_empty env) fun x hx => congrArg (lookupText env)
      (qosLookupAt_eq (lies_of_mem_starts hlies hx) (h.complete x.2 (mem_of_mem_starts hx)))
  rw [QosShown, qosFrame_str env type h.heads, String.append_right_inj, ← hshown, join_lookups]
  unfold fieldText fieldLookups qosLookups
  rw [hlen]
  by_cases hps : ps = []
  · subst hps
    rw [if_pos (show (encode []).length = 0 from rfl), if_pos rfl, visits_done (by simp [encode])]
    exact Iff.rfl
  · rw [if_neg (encode_length_pos hps), if_neg hps, String.append_right_inj]

/-- An octet sequence reaches `parse_ircomm_params` with the low byte of its length. -/
theorem iriasValue_octSeq {s : St} {header rest : List UInt8} {hi lo : UInt8}
    (hircomm : s.dec.lastIas.ircomm = true) (hheader : header.length = 4)
    (hbytes : s.buf.bytes = header ++ (iasOctSeq :: hi :: lo :: rest)) :
    ∃ t : St, t.buf.bytes = rest ∧ t.str = s.str ++ "\n\tIrCOMM Parameters " ∧
      parseIriasValue s = parseIrcommParams lo t := by
  have hlies := (lies_append.1 (lies_of_bytes hbytes)).2
  rw [hheader] at hlies
  have h4 : s.byte 4 = iasOctSeq := hlies.byte (i := 0) (by simp)
  have h6 : s.byte 6 = lo := hlies.byte (i := 2) (by simp)
  refine ⟨((s.pull 7).append "\n\tIrCOMM Parameters ").enter .ircommParams, ?_, rfl, ?_⟩
  · have hseven : (header ++ [iasOctSeq, hi, lo]).length = 7 := by simp [hheader]
    have hsplit : s.buf.bytes = (header ++ [iasOctSeq, hi, lo]) ++ rest := by
      rw [hbytes, List.append_assoc]
      rfl
    have hpull := pull_rest _ hsplit
    rwa [hseven] at hpull
  · have hlen : UInt8.ofNat (s.be16 5) = lo := by
      rw [ofNat_be16]
      exact h6
    unfold parseIriasValue
    simp only
    rw [h4, if_neg (by decide), if_neg (by decide), if_pos rfl, hlen,
      if_pos (show (s.pull 7).dec.lastIas.ircomm = true from hircomm)]

theorem iriapResponse_octSeq {opcode : UInt8} {s : St} {header rest : List UInt8} {hi lo : UInt8}
    (hircomm : s.dec.lastIas.ircomm = true) (hheader : header.length = 4)
    (hbytes : s.buf.bytes = opcode :: iasSuccess :: header ++ (iasOctSeq :: hi :: lo :: rest)) :
    ∃ t : St, t.buf.bytes = rest ∧ t.str = s.str ++ octSeqLine opcode ∧
      parseIriapResponse s = parseIrcommParams lo t := by
  set s₁ := (s.enter .iriapResponse).pull 2
  have h0 : (s.enter .iriapResponse).byte 0 = opcode := (lies_of_bytes hbytes).byte (i := 0) (by simp)
  have h1 : (s.enter .iriapResponse).byte 1 = iasSuccess :=
    (lies_of_bytes hbytes).byte (i := 1) (by simp)
  have hbytes₁ : s₁.buf.bytes = header ++ (iasOctSeq :: hi :: lo :: rest) :=
    pull_rest (s := s.enter .iriapResponse) [opcode, iasSuccess] hbytes
  -- the opcode changes the line and the messages only
  obtain ⟨s₂, hs₂, hbuf, hdec, hstr⟩ : ∃ s₂ : St,
      s₂ = (if opcode &&& ~~~0x80 = getInfoBase then
          s₁.print "parse_iriap_response() Sorry, GET_INFO_BASE not implemented!\n"
        else if opcode &&& ~~~0x80 = getValueByClass then s₁.append "GET_VALUE_BY_CLASS: "
        else s₁.print "parse_iriap_response() Sorry, not implemented!\n") ∧
      s₂.buf = s₁.buf ∧ s₂.dec = s.dec ∧ s₂.str = s.str ++
        (if opcode &&& ~~~0x80 = getValueByClass then "GET_VALUE_BY_CLASS: " else "") := by
    refine ⟨_, rfl, ?_, ?_, ?_⟩
    · split_ifs <;> rfl
    · split_ifs <;> rfl
    · by_cases hb : opcode &&& ~~~0x80 = getInfoBase
      · rw [if_pos hb, hb, if_neg (by decide), String.append_empty]
        rfl
      · rw [if_neg hb]
        split_ifs
        · rfl
        · exact (String.append_empty).symm
  obtain ⟨t, htbytes, htstr, hvalue⟩ := iriasValue_octSeq (s := s₂.append "Success ")
    (by rw [dec_append, hdec]; exact hircomm) hheader (by rw [buf_append, hbuf]; exact hbytes₁)
  refine ⟨t, htbytes, ?_, ?_⟩
  · rw [htstr, octSeqLine]
    simp only [St.append, hstr, String.append_assoc]
    rfl
  · unfold parseIriapResponse
    simp only
    rw [h0, h1, if_pos rfl, ← hs₂, hvalue]

theorem octSeq_shown_iff {opcode : UInt8} {s : St} {ps : List Param} (h : OctSeqAnswer opcode s ps) :
    OctSeqShown opcode s ps ↔
      ∀ x ∈ starts 0 ps, ircommKnown x.2 = true → x.1 < (encode ps).length % 256 := by
  obtain ⟨header, rest, hheader, hbytes⟩ := h.bytes
  obtain ⟨t, htbytes, htstr, hparse⟩ := iriapResponse_octSeq h.ircomm hheader hbytes
  have hlies := (lies_append.1 (lies_of_bytes htbytes)).1
  rw [← ircommParams_shown_iff hlies (Nat.mod_le _ _) h.complete, OctSeqShown, hparse,
    parseIrcommParams, UInt8.toNat_ofNat', ircommParamsLoop_eq, ← htstr]
  exact String.append_right_inj _

/-- Both kinds of fields are shown as a whole exactly when every known parameter starts below
the length modulo 256. -/
theorem whole_fields_shown_iff (env : Env) (type : ℤ) (k : QosFrame) (opcode : UInt8) (s : St)
    (ps : List Param) :
    (QosField k s ps → (QosShown env type k s ps ↔
      ∀ x ∈ starts 0 ps, qosKnown x.2 = true → x.1 < (encode ps).length % 256)) ∧
    (OctSeqAnswer opcode s ps → (OctSeqShown opcode s ps ↔
      ∀ x ∈ starts 0 ps, ircommKnown x.2 = true → x.1 < (encode ps).length % 256)) := by
  constructor
  · intro h
    exact qos_shown_iff env type h
  · intro h
    exact octSeq_shown_iff h

/-- The answer to an IrCOMM query with the parameters `ps` as its value. -/
def ircommAnswer (ps : List Param) : St :=
  (packet (0x84 :: iasSuccess :: [0, 1, 0, 1] ++ (iasOctSeq :: UInt8.ofNat ((encode ps).length / 256) ::
    UInt8.ofNat (encode ps).length :: encode ps ++ []))).setIas ⟨0xff, true, false, true, false⟩

theorem whole_fields_shown_short :
    QosShown (Frame.ofBytes 1 []).env 1 .snrm (snrmFrame shortField) shortField ∧
      OctSeqShown 0x84 (ircommAnswer sampleParams) sampleParams := by
  constructor
  · refine ((whole_fields_shown_iff _ 1 .snrm 0 (snrmFrame shortField) shortField).1 ?_).2 (by decide)
    exact ⟨snrmFrame_heads _, snrmFrame_bytes _, by decide⟩
  · refine ((whole_fields_shown_iff (Frame.ofBytes 1 []).env 1 .snrm 0x84 (ircommAnswer sampleParams)
      sampleParams).2 ?_).2 (by decide)
    exact ⟨rfl, ⟨[0, 1, 0, 1], [], rfl, packet_bytes _⟩, by decide, by decide⟩

/-- An unknown parameter of 256 bytes. -/
def padding : Param := ⟨0x7f, List.replicate 254 0, by rw [List.length_replicate]; decide⟩

theorem padding_size : padding.size = 256 := by
  rw [Param.size, padding, List.length_replicate]

def maxTurnTime : Param := ⟨0x02, [0x01], by decide⟩

/-- The length of the field is 259, so that the loop stops behind the first parameter. -/
theorem long_field_cut :
    ¬ ∀ (env : Env) (type : ℤ) (k : QosFrame) (s : St) (ps : List Param), QosField k s ps →
      s.buf.len ≤ maxFrameSize → QosShown env type k s ps := by
  intro h
  have hfield : QosField .snrm (snrmFrame [padding, maxTurnTime]) [padding, maxTurnTime] :=
    ⟨snrmFrame_heads _, snrmFrame_bytes _, by decide⟩
  have hlen : (encode [padding, maxTurnTime]).length = 259 := by
    rw [encode_cons, List.length_append, Param.encode_length, padding_size]
    rfl
  have hfits : (snrmFrame [padding, maxTurnTime]).buf.len ≤ maxFrameSize := by
    rw [← bytes_length, snrmFrame, packet_bytes, List.length_append, hlen]
    decide
  have hmem : (256, maxTurnTime) ∈ starts 0 [padding, maxTurnTime] := by
    rw [starts, starts, padding_size]
    exact List.mem_cons_of_mem _ (List.mem_singleton_self _)
  have hshown := h (Frame.ofBytes 1 []).env 1 .snrm _ _ hfield hfits
  have hlt := (qos_shown_iff _ _ hfield).1 hshown _ hmem (by decide)
  rw [hlen] at hlt
  exact absurd hlt (by decide)

end Irdadump
