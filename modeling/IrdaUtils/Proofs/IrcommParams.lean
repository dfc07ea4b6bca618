import IrdaUtils.Proofs.NetBuf
import IrdaUtils.Sanity.Rest
import IrdaUtils.Sanity.Table
import IrdaUtils.Spec.ParamWire

/-! What TinyTP and IrCOMM take off the buffer. The walk over the IrCOMM parameters shows
each known one from its own bytes and ends at the user data. The header of a TinyTP
connect frame is taken off in two parts that leave out the length byte of its
parameters. -/

namespace Irdadump
open Memory Tlv

/-! ### Bytes in the buffer -/

theorem lies_of_bytes {s : St} {bs : List UInt8} (h : s.buf.bytes = bs) : Lies s.byte 0 bs := by
  have hlen : s.buf.len = bs.length := by rw [← h, bytes_length]
  rw [Lies, ← hlen]
  refine Eq.trans ?_ h
  refine load_congr fun i _ => ?_
  simp only [St.byte, Nat.zero_add]

theorem pull_rest {s : St} (bs : List UInt8) {u : List UInt8} (h : s.buf.bytes = bs ++ u) :
    (s.pull bs.length).buf.bytes = u := by
  have hle : bs.length ≤ s.buf.len := by
    rw [← bytes_length s.buf, h]
    simp
  rw [pull_bytes hle, h, List.drop_left]

/-! ### IrCOMM parameters -/

/-- The loop adds the texts of the parameters that it visits. -/
theorem ircommParamsLoop_eq (clen : ℕ) (s : St) (n : ℕ) :
    ircommParamsLoop clen s n =
      s.append (String.join ((visits s.byte clen n).map (ircommParamText s))) := by
  fun_induction ircommParamsLoop clen s n with
  | case1 s n hn ih =>
    rw [ih, visits_next hn, List.map_cons, String.join_cons]
    simp only [St.append, String.append_assoc]
    rfl
  | case2 s n hn =>
    rw [visits_done hn]
    simp [St.append]

/-- The bytes of a parameter at `n`, behind its identifier and its length. -/
theorem value_byte {m : Mem} {n : ℕ} {p : Param} (hp : Lies m n p.encode) {i : ℕ}
    (hi : i < p.value.length) : m (n + (i + 2)) = p.value.getD i 0 := by
  rw [hp.byte (by simp only [Param.encode_length, Param.size]; omega)]
  simp [Param.encode]

theorem param_id {m : Mem} {n : ℕ} {p : Param} (hp : Lies m n p.encode) : m n = p.id :=
  hp.byte (i := 0) (by simp [Param.encode])

theorem serviceTypeText_eq (b : UInt8) :
    serviceTypeText b = "Service Type=" ++ bitWords serviceTypes b.toNat := by
  have h : ∀ n : Fin 256, serviceTypeText (UInt8.ofNat n) =
      "Service Type=" ++ bitWords serviceTypes (UInt8.ofNat n).toNat := by decide +kernel
  have hb := h ⟨b.toNat, b.toNat_lt⟩
  rwa [UInt8.ofNat_toNat] at hb

theorem portTypeText_eq (b : UInt8) : portTypeText b = "Port Type=" ++ bitWords portTypes b.toNat := by
  have h : ∀ n : Fin 256, portTypeText (UInt8.ofNat n) =
      "Port Type=" ++ bitWords portTypes (UInt8.ofNat n).toNat := by decide +kernel
  have hb := h ⟨b.toNat, b.toNat_lt⟩
  rwa [UInt8.ofNat_toNat] at hb

/-- A complete parameter is shown from its own bytes. -/
theorem ircommParamText_eq {s : St} {n : ℕ} {p : Param} (hp : Lies s.byte n p.encode)
    (hc : IrcommComplete p) : ircommParamText s n = ircommRender p := by
  have hpi : (s.byte n &&& 0x7f).toNat = paramId p := by rw [param_id hp, paramId]
  have hv : ∀ i < p.value.length, s.byte (n + (2 + i)) = p.value.getD i 0 := by
    intro i hi
    rw [Nat.add_comm 2 i, value_byte hp hi]
  have hsize : ∀ k, ircommParamSize (paramId p) = k + 2 → k ≤ p.value.length := by
    intro k hk
    rw [IrcommComplete, hk] at hc
    exact Nat.le_of_add_le_add_right hc
  unfold ircommParamText ircommRender
  simp only [hpi, St.be32, St.be16, Nat.add_assoc]
  by_cases h1 : paramId p = serviceTypePi
  · rw [if_pos h1, if_pos h1, hv 0 (hsize 1 (by rw [h1]; rfl)), serviceTypeText_eq]
  rw [if_neg h1, if_neg h1]
  by_cases h2 : paramId p = portTypePi
  · rw [if_pos h2, if_pos h2, hv 0 (hsize 1 (by rw [h2]; rfl)), portTypeText_eq]
  rw [if_neg h2, if_neg h2]
  by_cases h3 : paramId p = dataRatePi
  · have hlen : 4 ≤ p.value.length := hsize 4 (by rw [h3]; rfl)
    rw [if_pos h3, if_pos h3, hv 0 (by omega), hv 1 (by omega), hv 2 (by omega), hv 3 (by omega)]
  rw [if_neg h3, if_neg h3]
  by_cases h4 : paramId p = dataFormatPi
  · rw [if_pos h4, if_pos h4, hv 0 (hsize 1 (by rw [h4]; rfl))]
  rw [if_neg h4, if_neg h4]
  by_cases h5 : paramId p = flowControlPi
  · rw [if_pos h5, if_pos h5, hv 0 (hsize 1 (by rw [h5]; rfl))]
  rw [if_neg h5, if_neg h5]
  by_cases h6 : paramId p = xonXoffCharPi
  · have hlen : 2 ≤ p.value.length := hsize 2 (by rw [h6]; rfl)
    rw [if_pos h6, if_pos h6, hv 0 (by omega), show n + 3 = n + (2 + 1) from rfl, hv 1 (by omega)]
  rw [if_neg h6, if_neg h6]
  by_cases h7 : paramId p = dtelineStatePi
  · rw [if_pos h7, if_pos h7, hv 0 (hsize 1 (by rw [h7]; rfl))]
  rw [if_neg h7, if_neg h7]

theorem append_ne_empty {t : String} (h : t ≠ "") (u : String) : t ++ u ≠ "" := fun e =>
  h (String.append_eq_empty_iff.1 e).1

theorem append_blank_ne_empty (t : String) : t ++ " " ≠ "" := fun e =>
  absurd (String.append_eq_empty_iff.1 e).2 (by decide)

/-- The known identifiers are those that are shown. -/
theorem ircommRender_eq_empty (p : Param) : ircommRender p = "" ↔ ircommKnown p = false := by
  have hknown : ∀ {pi : ℕ} {t : String}, paramId p = pi → (ircommParamSize pi != 1) = true → t ≠ "" →
      (t = "" ↔ ircommKnown p = false) := by
    intro pi t hpi hk ht
    refine iff_of_false ht ?_
    rw [ircommKnown, hpi, hk]
    decide
  unfold ircommRender
  simp only
  split_ifs with h1 h2 h3 h4 h5 h6 h7
  · exact hknown h1 rfl (append_ne_empty (by decide) _)
  · exact hknown h2 rfl (append_ne_empty (by decide) _)
  · exact hknown h3 rfl (append_blank_ne_empty _)
  · exact hknown h4 rfl (append_blank_ne_empty _)
  · exact hknown h5 rfl (append_blank_ne_empty _)
  · exact hknown h6 rfl (append_blank_ne_empty _)
  · exact hknown h7 rfl (append_blank_ne_empty _)
  · have hone : ircommParamSize (paramId p) = 1 := by
      rw [ircommParamSize, if_neg (by tauto), if_neg h3, if_neg h6]
    exact iff_of_true rfl (by rw [ircommKnown, hone]; rfl)

/-- What the loop shows of a list is all of it when no known parameter starts at the limit
or behind it. -/
theorem ircommParams_shown_iff {s : St} {clen : ℕ} {ps : List Param}
    (hs : Lies s.byte 0 (encode ps)) (hle : clen ≤ (encode ps).length)
    (hwf : ∀ p ∈ ps, IrcommComplete p) :
    String.join ((visits s.byte clen 0).map (ircommParamText s)) = ircommShown ps ↔
      ∀ x ∈ starts 0 ps, ircommKnown x.2 = true → x.1 < clen :=
  shown_iff _ _ _ hs (by rwa [Nat.zero_add]) ircommRender_eq_empty fun x hx =>
    ircommParamText_eq (lies_of_mem_starts hs hx) (hwf x.2 (mem_of_mem_starts hx))

/-- The parameters of the control channel are shown in their order, each from its own bytes,
and the user data are left. -/
theorem ircomm_params_shown (s : St) (ps : List Param) (u : List UInt8)
    (hwf : ∀ p ∈ ps, IrcommComplete p)
    (hc : 1 ≤ (encode ps).length ∧ (encode ps).length ≤ 255)
    (hs : s.buf.bytes = UInt8.ofNat (encode ps).length :: encode ps ++ u) :
    (parseIrcommTtp s).str = s.str ++ "\n\tIrCOMM " ++ ircommShown ps ∧
      (parseIrcommTtp s).buf.bytes = u := by
  set c := (encode ps).length
  have hcn : (UInt8.ofNat c).toNat = c := by
    rw [UInt8.toNat_ofNat', Nat.mod_eq_of_lt (by omega)]
  have hlen : (s.enter .ircommTtp).buf.len ≠ 0 := by
    have h := congrArg List.length hs
    rw [bytes_length, List.cons_append, List.length_cons] at h
    exact h ▸ Nat.succ_ne_zero _
  have hbyte : (s.enter .ircommTtp).byte 0 = UInt8.ofNat c :=
    (lies_of_bytes hs).byte (i := 0) (by simp)
  have hne : UInt8.ofNat c ≠ 0 := by
    intro h
    have h0 := congrArg UInt8.toNat h
    rw [hcn] at h0
    exact absurd h0 (by simpa using Nat.one_le_iff_ne_zero.1 hc.1)
  set t := ((s.enter .ircommTtp).pull 1).append "\n\tIrCOMM "
  have ht : t.buf.bytes = encode ps ++ u := pull_rest (s := s.enter .ircommTtp) [_] hs
  have hshown : String.join ((visits t.byte c 0).map (ircommParamText t)) = ircommShown ps := by
    refine (ircommParams_shown_iff (lies_append.1 (lies_of_bytes ht)).1 le_rfl hwf).2 ?_
    intro x hx _
    have h := end_le_of_mem_starts hx
    unfold Param.size at h
    omega
  have hparse : parseIrcommTtp s = (t.append (ircommShown ps)).pull c := by
    unfold parseIrcommTtp
    simp only
    rw [if_neg hlen, hbyte, if_pos hne, parseIrcommParams, hcn, ircommParamsLoop_eq, hshown]
  rw [hparse]
  exact ⟨rfl, pull_rest (s := t.append (ircommShown ps)) _ ht⟩

theorem packet_bytes (bs : List UInt8) : (packet bs).buf.bytes = bs := by
  change load (fun n => bs.getD n 0) 0 bs.length = bs
  refine List.ext_getElem (load_length _ _ _) fun i h1 h2 => ?_
  rw [load_getElem, Nat.zero_add, List.getD_eq_getElem _ _ h2]

/-- A service type, an unknown parameter and a critical data rate. -/
def sampleParams : List Param :=
  [⟨0x00, [0x04], by decide⟩, ⟨0x55, [1, 2, 3], by decide⟩, ⟨0x90, [0, 0, 0x25, 0x80], by decide⟩]

theorem ircomm_params_shown_sample :
    (parseIrcommTtp (packet (14 :: encode sampleParams ++ [7, 8]))).str =
        "" ++ "\n\tIrCOMM " ++ ircommShown sampleParams ∧
      (parseIrcommTtp (packet (14 :: encode sampleParams ++ [7, 8]))).buf.bytes = [7, 8] :=
  ircomm_params_shown (packet (14 :: encode sampleParams ++ [7, 8])) sampleParams [7, 8]
    (by decide) (by decide) rfl

/-! ### TinyTP -/

theorem irttpConnect_calls (s : St) :
    (parseIrttpConnect s).calls = s.calls ++ [⟨.irttpConnect, s.buf.bytes⟩] := by
  unfold parseIrttpConnect
  simp only
  split_ifs <;> rfl

theorem ircommConnect_calls (s : St) :
    (parseIrcommConnect s).calls =
      s.calls ++ [⟨.ircommConnect, s.buf.bytes⟩] ++ [⟨.ircommTtp, s.buf.bytes⟩] := by
  unfold parseIrcommConnect parseIrcommTtp parseIrcommParams
  simp only [ircommParamsLoop_eq]
  split_ifs <;> rfl

/-- The next parser is handed what `parse_irttp_connect` has left. -/
theorem next_contents {c : LsapState} (hc : c.ttp = true) {s : St} {k : Call}
    (hk : (connectParsers c s).calls[s.calls.length + 1]? = some k) :
    k.contents = (parseIrttpConnect s).buf.bytes := by
  have hlen : (parseIrttpConnect s).calls.length = s.calls.length + 1 := by
    rw [irttpConnect_calls, List.length_append, List.length_singleton]
  have hirnet : ∀ t, (parseIrnet t).calls = t.calls ++ [⟨.irnet, t.buf.bytes⟩] := fun _ => rfl
  -- a parser that is called next is the first one in what it adds to the record
  have hfirst : ∀ {x : Call} {rest : List Call},
      ((parseIrttpConnect s).calls ++ x :: rest)[s.calls.length + 1]? = some k → x = k := by
    intro x rest h
    rw [← hlen, List.getElem?_append_right le_rfl, Nat.sub_self] at h
    exact Option.some.inj h
  unfold connectParsers at hk
  simp only [if_pos hc] at hk
  by_cases hi : c.ircomm = true
  · rw [if_pos hi] at hk
    split_ifs at hk
    · rw [hirnet, ircommConnect_calls, List.append_assoc, List.append_assoc] at hk
      rw [← hfirst hk]
    · rw [ircommConnect_calls, List.append_assoc] at hk
      rw [← hfirst hk]
  · rw [if_neg hi] at hk
    split_ifs at hk
    · rw [← hfirst hk]
    · rw [List.getElem?_eq_none (by omega)] at hk
      cases hk

theorem headerConsumed_iff (s : St) (u : List UInt8) :
    HeaderConsumed s u ↔ (parseIrttpConnect s).buf.bytes = u :=
  ⟨fun h => h.rest, fun h => ⟨h, fun _ hc _ hk => h ▸ next_contents hc hk⟩⟩

/-- Without parameters the header is one byte. -/
theorem irttpConnect_bare {s : St} {b : UInt8} {u : List UInt8} (hs : s.buf.bytes = b :: u)
    (hb : b &&& 0x80 = 0) : (parseIrttpConnect s).buf.bytes = u := by
  have hbyte : s.buf.byte 0 = b := (lies_of_bytes hs).byte (i := 0) (by simp)
  rw [buf_parseIrttpConnect, ttpConnectRest, hbyte, if_neg (not_not.2 hb)]
  exact pull_rest [b] hs

/-- With parameters the last byte of them is left. -/
theorem irttpConnect_params {s : St} {b : UInt8} {ps u : List UInt8}
    (hs : s.buf.bytes = b :: UInt8.ofNat ps.length :: ps ++ u) (hb : b &&& 0x80 ≠ 0)
    (hlt : ps.length < 256) : (parseIrttpConnect s).buf.bytes.length = u.length + 1 := by
  have hlies := lies_of_bytes hs
  have hbyte : s.buf.byte 0 = b := hlies.byte (i := 0) (by simp)
  have hplen : (s.buf.byte 1).toNat = ps.length := by
    rw [show s.buf.byte 1 = UInt8.ofNat ps.length from hlies.byte (i := 1) (by simp),
      UInt8.toNat_ofNat', Nat.mod_eq_of_lt hlt]
  have hlen : s.buf.len = ps.length + u.length + 2 := by
    rw [← bytes_length, hs]
    simp
  have hpull : (s.pull ps.length).buf.len = u.length + 2 := by
    rw [St.len_pull (by omega)]
    omega
  rw [bytes_length, buf_parseIrttpConnect, ttpConnectRest, hbyte, if_pos hb, hplen]
  change ((s.pull ps.length).pull 1).buf.len = _
  rw [St.len_pull (by omega)]
  omega

/-- The header of a connect frame is taken off exactly when it has no parameters. -/
theorem ttp_header_consumed_iff (s : St) (h : TtpHeader) (u : List UInt8)
    (hs : s.buf.bytes = h.encode ++ u) : HeaderConsumed s u ↔ h.first &&& 0x80 = 0 := by
  rw [headerConsumed_iff]
  unfold TtpHeader.encode at hs
  by_cases hb : h.first &&& 0x80 = 0
  · rw [if_pos hb] at hs
    exact iff_of_true (irttpConnect_bare hs hb) hb
  · rw [if_neg hb] at hs
    refine iff_of_false ?_ hb
    intro hu
    have hlen := irttpConnect_params hs hb (h.complete hb).2
    rw [hu] at hlen
    exact absurd hlen (Nat.ne_of_lt (Nat.lt_succ_self _))

theorem ttp_header_consumed_bare : HeaderConsumed (packet [0x05, 0xaa, 0xbb]) [0xaa, 0xbb] :=
  (ttp_header_consumed_iff (packet [0x05, 0xaa, 0xbb]) ⟨0x05, [], fun _ => rfl, by decide⟩
    [0xaa, 0xbb] rfl).2 (by decide)

/-- A header with the parameter MaxSduSize: the second byte of its value is left in front of
the user data. -/
theorem ttp_params_left :
    ¬ ∀ (s : St) (h : TtpHeader) (u : List UInt8), s.buf.bytes = h.encode ++ u →
      HeaderConsumed s u := by
  intro h
  have hc := h (packet [0x85, 4, 1, 2, 0x10, 0x00, 0xaa, 0xbb])
    ⟨0x85, [1, 2, 0x10, 0x00], by decide, by decide⟩ [0xaa, 0xbb] rfl
  have hrest : (parseIrttpConnect (packet [0x85, 4, 1, 2, 0x10, 0x00, 0xaa, 0xbb])).buf.bytes =
      [0x00, 0xaa, 0xbb] := by
    rw [buf_parseIrttpConnect]
    decide
  exact absurd (hrest.symm.trans hc.rest) (by decide)

end Irdadump
