import IrdaUtils.Spec.Irlap

/-! The parsers above LMP work on the buffer's pointers and on the text. None of them
writes to memory, to the connection table or to the sequence counters, so the
invariants of the table are a matter of `parse_irlmp` and the LAP frames alone. -/

namespace Irdadump
open Memory

/-- From `s` to `s'` the parsers `ps` were entered, with the memory, the table, the
counters and the record of slots left alone. -/
structure Calm (ps : List Parser) (s s' : St) : Prop where
  mem : s'.buf.mem = s.buf.mem
  head : s'.buf.head = s.buf.head
  truesize : s'.buf.truesize = s.buf.truesize
  conn : s'.dec.conn = s.dec.conn
  cache : s'.dec.connCache = s.dec.connCache
  counters : s'.dec.selfNr = s.dec.selfNr ∧ s'.dec.selfNs = s.dec.selfNs ∧
    s'.dec.peerNr = s.dec.peerNr ∧ s'.dec.peerNs = s.dec.peerNs
  picked : s'.picked = s.picked
  names : s'.names = s.names ++ ps

/-- The same with `last_ias` left alone as well, as by all but the IAS parsers. -/
structure Upper (ps : List Parser) (s s' : St) : Prop extends Calm ps s s' where
  ias : s'.dec.lastIas = s.dec.lastIas

theorem Calm.trans {ps ps' : List Parser} {s s' s'' : St} (h : Calm ps s s')
    (h' : Calm ps' s' s'') : Calm (ps ++ ps') s s'' where
  mem := h'.mem.trans h.mem
  head := h'.head.trans h.head
  truesize := h'.truesize.trans h.truesize
  conn := h'.conn.trans h.conn
  cache := h'.cache.trans h.cache
  counters := by
    obtain ⟨h1, h2, h3, h4⟩ := h.counters
    obtain ⟨h1', h2', h3', h4'⟩ := h'.counters
    exact ⟨h1'.trans h1, h2'.trans h2, h3'.trans h3, h4'.trans h4⟩
  picked := h'.picked.trans h.picked
  names := by rw [h'.names, h.names, List.append_assoc]

theorem Upper.refl (s : St) : Upper [] s s :=
  ⟨⟨rfl, rfl, rfl, rfl, rfl, ⟨rfl, rfl, rfl, rfl⟩, rfl, by simp⟩, rfl⟩

theorem Upper.trans {ps ps' : List Parser} {s s' s'' : St} (h : Upper ps s s')
    (h' : Upper ps' s' s'') : Upper (ps ++ ps') s s'' :=
  ⟨h.toCalm.trans h'.toCalm, h'.ias.trans h.ias⟩

/-- A step that enters no parser, in front. -/
theorem Upper.after {ps : List Parser} {s s' s'' : St} (h' : Upper ps s' s'')
    (h : Upper [] s s') : Upper ps s s'' := h.trans h'

/-- A step that enters no parser, behind. -/
theorem Upper.then {ps : List Parser} {s s' s'' : St} (h : Upper ps s s')
    (h' : Upper [] s' s'') : Upper ps s s'' := by
  simpa using h.trans h'

theorem upper_append (s : St) (t : String) : Upper [] s (s.append t) :=
  ⟨⟨rfl, rfl, rfl, rfl, rfl, ⟨rfl, rfl, rfl, rfl⟩, rfl, by simp [St.append, St.names]⟩, rfl⟩

theorem upper_print (s : St) (t : String) : Upper [] s (s.print t) :=
  ⟨⟨rfl, rfl, rfl, rfl, rfl, ⟨rfl, rfl, rfl, rfl⟩, rfl, by simp [St.print, St.names]⟩, rfl⟩

theorem upper_pull (s : St) (n : ℕ) : Upper [] s (s.pull n) := by
  refine ⟨⟨?_, ?_, ?_, rfl, rfl, ⟨rfl, rfl, rfl, rfl⟩, rfl, by simp [St.pull, St.names]⟩, rfl⟩
  all_goals
    simp only [St.pull, gNetbufPull]
    split_ifs <;> rfl

theorem upper_enter (s : St) (p : Parser) : Upper [p] s (s.enter p) :=
  ⟨⟨rfl, rfl, rfl, rfl, rfl, ⟨rfl, rfl, rfl, rfl⟩, rfl, by simp [St.enter, St.names]⟩, rfl⟩

theorem calm_setIas (s : St) (q : IasQuery) : Calm [] s (s.setIas q) :=
  ⟨rfl, rfl, rfl, rfl, rfl, ⟨rfl, rfl, rfl, rfl⟩, rfl, by simp [St.setIas, St.names]⟩

theorem upper_setCommand (s : St) (c : UInt8) : Upper [] s (s.setCommand c) :=
  ⟨⟨rfl, rfl, rfl, rfl, rfl, ⟨rfl, rfl, rfl, rfl⟩, rfl, by simp [St.setCommand, St.names]⟩, rfl⟩

theorem byte_append (s : St) (t : String) (n : ℕ) : (s.append t).byte n = s.byte n := rfl

theorem byte_of_buf {s s' : St} (h : s'.buf = s.buf) : s'.byte = s.byte := by
  funext n
  rw [St.byte, St.byte, h]

theorem St.byte_pull {s : St} {k : ℕ} (h : k ≤ s.buf.len) (n : ℕ) :
    (s.pull k).byte n = s.byte (k + n) := by
  simp only [St.byte, St.pull, gNetbufPull, if_neg (Nat.not_lt.2 h), Nat.add_assoc]

theorem St.len_pull {s : St} {k : ℕ} (h : k ≤ s.buf.len) :
    (s.pull k).buf.len = s.buf.len - k := by
  simp only [St.pull, gNetbufPull, if_neg (Nat.not_lt.2 h)]

theorem pull_bytes {s : St} {k : ℕ} (h : k ≤ s.buf.len) :
    (s.pull k).buf.bytes = s.buf.bytes.drop k := by
  simp only [GNetBuf.bytes, St.pull, gNetbufPull, if_neg (Nat.not_lt.2 h), load_drop]

theorem St.pull_short {s : St} {k : ℕ} (h : s.buf.len < k) : s.pull k = s := by
  simp only [St.pull, gNetbufPull, if_pos h]

/-! ### IrCOMM -/

theorem upper_ircommParamsLoop (clen : ℕ) (s : St) (n : ℕ) :
    Upper [] s (ircommParamsLoop clen s n) := by
  fun_induction ircommParamsLoop clen s n with
  | case1 s n hn ih => exact ih.after (upper_append s _)
  | case2 s n hn => exact Upper.refl s

theorem upper_parseIrcommParams (clen : UInt8) (s : St) :
    Upper [] s (parseIrcommParams clen s) :=
  (upper_ircommParamsLoop clen.toNat s 0).then (upper_pull _ clen.toNat)

theorem upper_parseIrcommTtp (s : St) : Upper [.ircommTtp] s (parseIrcommTtp s) := by
  have h := upper_enter s .ircommTtp
  unfold parseIrcommTtp
  simp only
  split_ifs
  · exact h
  · exact h.then (((upper_parseIrcommParams _ _).after (upper_append _ _)).after (upper_pull _ _))
  · exact h.then ((upper_append _ _).after (upper_pull _ _))

theorem upper_parseIrcommConnect (s : St) :
    Upper [.ircommConnect, .ircommTtp] s (parseIrcommConnect s) :=
  (upper_enter s .ircommConnect).trans (upper_parseIrcommTtp _)

theorem upper_parseIrcommLmp (s : St) : Upper [.ircommLmp] s (parseIrcommLmp s) :=
  (upper_enter s .ircommLmp).then (upper_append _ _)

/-! ### OBEX -/

theorem upper_parseObexHeader (env : Env) (s : St) (istext : Bool) :
    Upper [] s (parseObexHeader env s istext).2 := by
  unfold parseObexHeader
  simp only
  split_ifs <;> exact upper_append s _

theorem upper_obexHeaderStep (env : Env) (s : St) :
    Upper [] s (obexHeaderStep env s).2 :=
  (upper_parseObexHeader env _ _).after (upper_append s _)

theorem upper_obexHeadersLoop (env : Env) (s : St) :
    Upper [] s (obexHeadersLoop env s) := by
  fun_induction obexHeadersLoop env s with
  | case1 s h0 r h =>
    exact (upper_obexHeaderStep env s).then (upper_append r.2 _)
  | case2 s h0 r h _ ih =>
    exact ((upper_obexHeaderStep env s).then (upper_pull r.2 r.1)).then ih
  | case3 s h0 => exact Upper.refl s

theorem upper_parseObexHeaders (env : Env) (s : St) (n : ℕ) :
    Upper [] s (parseObexHeaders env s n) :=
  ((upper_obexHeadersLoop env _).after (upper_append _ _)).after (upper_pull s n)

theorem upper_parseObexConnect (s : St) : Upper [] s (parseObexConnect s) := by
  unfold parseObexConnect
  simp only
  split_ifs <;> exact upper_append s _

theorem upper_parseObexSuccess (env : Env) (s : St) (c : UInt8) :
    Upper [] s (parseObexSuccess env s c) := by
  unfold parseObexSuccess
  simp only
  split_ifs <;> exact (upper_parseObexHeaders env _ _).after (upper_append s _)

theorem upper_parseObexSetpath (env : Env) (s : St) :
    Upper [] s (parseObexSetpath env s) :=
  (upper_parseObexHeaders env _ _).after (upper_append s _)

theorem upper_parseObexResponse (env : Env) (s : St) (opcode : UInt8) :
    Upper [] s (parseObexResponse env s opcode) := by
  unfold parseObexResponse
  split_ifs
  · exact (upper_parseObexHeaders env _ _).after (upper_append s _)
  · exact upper_append s _
  · exact upper_parseObexSuccess env s _
  all_goals exact upper_append s _

theorem upper_parseObexCommand (env : Env) (s : St) (opcode : UInt8) :
    Upper [] s (parseObexCommand env s opcode) := by
  have h := upper_setCommand s opcode
  unfold parseObexCommand
  simp only
  split_ifs
  · exact h.then (upper_parseObexConnect _)
  · exact h.then ((upper_parseObexHeaders env _ _).after (upper_append _ _))
  · exact h.then ((upper_parseObexHeaders env _ _).after (upper_append _ _))
  · exact h.then (upper_append _ _)
  · exact h.then (upper_append _ _)
  · exact h.then (upper_parseObexSetpath env _)
  all_goals exact h.then (upper_append _ _)

theorem upper_parseObex (env : Env) (s : St) (cmd : UInt8) :
    Upper [.obex] s (parseObex env s cmd) := by
  have h := (upper_enter s .obex).then (upper_append _ "\n\tOBEX ")
  unfold parseObex
  simp only
  split_ifs
  · exact h
  · exact h.then (upper_parseObexResponse env _ _)
  · exact h.then (upper_parseObexCommand env _ _)

/-! ### TinyTP and IrNET -/

theorem upper_parseIrnet (s : St) : Upper [.irnet] s (parseIrnet s) :=
  (upper_enter s .irnet).then (upper_append _ _)

theorem upper_parseIrttp (s : St) : Upper [.irttp] s (parseIrttp s) := by
  unfold parseIrttp
  simp only
  split_ifs
  · exact (upper_enter s .irttp).then
      (((upper_pull _ _).after (upper_append _ _)).after (upper_append _ _))
  · exact (upper_enter s .irttp).then ((upper_pull _ _).after (upper_append _ _))

theorem upper_parseIrttpConnect (s : St) :
    Upper [.irttpConnect] s (parseIrttpConnect s) := by
  unfold parseIrttpConnect
  simp only
  split_ifs
  · exact (upper_enter s .irttpConnect).then
      ((((upper_pull _ _).after (upper_append _ _)).after (upper_pull _ _)).after (upper_append _ _))
  · exact (upper_enter s .irttpConnect).then ((upper_pull _ _).after (upper_append _ _))

/-! ### QoS parameters -/

theorem upper_appendQos (env : Env) (s : St) (label : String) (pv : ℕ) (array : List ℕ)
    (unit : String) : Upper [] s (appendQos env s label pv array unit) := by
  unfold appendQos
  simp only
  split_ifs
  · exact (upper_append _ _).after (upper_print s _)
  · exact upper_append s _

theorem upper_irlapParam (env : Env) (s : St) (n : ℕ) : Upper [] s (irlapParam env s n) := by
  unfold irlapParam
  simp only
  split
  · exact upper_appendQos env s _ _ _ _
  · split
    · exact upper_appendQos env s _ _ _ _
    · exact Upper.refl s

theorem upper_irlapParamsLoop (env : Env) (clen : ℕ) (s : St) (n : ℕ) :
    Upper [] s (irlapParamsLoop env clen s n) := by
  fun_induction irlapParamsLoop env clen s n with
  | case1 s n hn ih => exact ih.after (upper_irlapParam env s n)
  | case2 s n hn => exact Upper.refl s

theorem upper_parseIrlapParams (env : Env) (clen : UInt8) (s : St) :
    Upper [] s (parseIrlapParams env clen s) :=
  ((upper_pull _ _).after (upper_irlapParamsLoop env _ _ _)).after (upper_append s _)

theorem upper_parseIField (env : Env) (n : ℕ) (s : St) : Upper [] s (parseIField env n s) := by
  unfold parseIField
  simp only
  split_ifs
  · exact (upper_parseIrlapParams env _ _).after (upper_pull s n)
  · exact upper_pull s n

theorem upper_parseUaFrame (env : Env) (caddr cmd pf : UInt8) (type : ℤ) (s : St) :
    Upper [] s (parseUaFrame env caddr cmd pf type s) := by
  unfold parseUaFrame
  simp only
  split_ifs <;> exact (upper_parseIField env _ _).after (upper_append s _)

theorem upper_parseSnrmFrame (env : Env) (caddr cmd pf : UInt8) (type : ℤ) (s : St) :
    Upper [] s (parseSnrmFrame env caddr cmd pf type s) := by
  unfold parseSnrmFrame
  simp only
  split_ifs <;> exact (upper_parseIField env _ _).after (upper_append s _)

end Irdadump
