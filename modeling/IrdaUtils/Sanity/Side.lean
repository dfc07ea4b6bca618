import IrdaUtils.Sanity.Rest

/-! The frame parsers side by side. The second run has the decoder of the first one, or
its mirror image: then its direction flags are flipped, and the connection table has the
selectors of every slot the other way round. -/

namespace Irdadump
open Memory

/-- The slot as a table at the other end of the link has it. -/
def LsapState.mirror (c : LsapState) : LsapState :=
  { c with slsapSel := c.dlsapSel, dlsapSel := c.slsapSel }

def Decoder.mirror (d : Decoder) : Decoder :=
  { d with
    selfNr := d.peerNr
    selfNs := d.peerNs
    peerNr := d.selfNr
    peerNs := d.selfNs
    conn := fun i => (d.conn i).mirror }

def LsapState.seen (m : Bool) (c : LsapState) : LsapState := if m then c.mirror else c
def Decoder.seen (m : Bool) (d : Decoder) : Decoder := if m then d.mirror else d

/-- The direction flags of the two runs. -/
def Facing (m : Bool) (type type' : ℤ) : Prop := type' ≠ 0 ↔ if m then type = 0 else type ≠ 0

/-- The states agree, and so do their decoders, up to the end they are seen from. -/
structure Side (m : Bool) (whole text : Prop) (s s' : St) : Prop
    extends Twin whole text s s' where
  dec : s'.dec = s.dec.seen m

section
variable {m : Bool} {whole text : Prop} {s s' : St}

/-! ### The decoder seen from an end -/

theorem seen_conn (m : Bool) (d : Decoder) : (d.seen m).conn = fun i => (d.conn i).seen m := by
  cases m <;> rfl

theorem seen_valid (m : Bool) (c : LsapState) : (c.seen m).valid = c.valid := by
  cases m <;> rfl

theorem seen_invalid (m : Bool) (c : LsapState) :
    { c.seen m with valid := false } = { c with valid := false }.seen m := by
  cases m <;> rfl

theorem seen_cache (m : Bool) (d : Decoder) : (d.seen m).connCache = d.connCache := by
  cases m <;> rfl

theorem seen_update (m : Bool) (conn : Slot → LsapState) (i : Slot) (c : LsapState) :
    (fun j => (Function.update conn i c j).seen m) =
      Function.update (fun j => (conn j).seen m) i (c.seen m) := by
  funext j
  by_cases h : j = i
  · subst h
    simp
  · simp [Function.update_of_ne h]

theorem garbage_seen (m : Bool) (conn : Slot → LsapState) (caddr : UInt8) :
    garbageConnection (fun i => (conn i).seen m) caddr =
      fun i => (garbageConnection conn caddr i).seen m := by
  funext i
  unfold garbageConnection
  cases m with
  | false => rfl
  | true =>
    by_cases hc : (conn i).caddr = caddr
    · rw [if_pos hc, if_pos (show ((conn i).seen true).caddr = caddr from hc)]
      rfl
    · rw [if_neg hc, if_neg (show ¬ ((conn i).seen true).caddr = caddr from hc)]

theorem seen_setConn (m : Bool) (d : Decoder) (conn : Slot → LsapState) :
    { d with conn := conn }.seen m = { d.seen m with conn := fun i => (conn i).seen m } := by
  cases m <;> rfl

theorem connectParsers_seen (m : Bool) (c : LsapState) : connectParsers (c.seen m) = connectParsers c := by
  cases m <;> rfl

theorem dataParsers_seen (env : Env) (m : Bool) (c : LsapState) :
    dataParsers env (c.seen m) = dataParsers env c := by
  cases m <;> rfl

/-! ### Steps -/

theorem Calm.dec_eq {ps : List Parser} {s t : St} (h : Calm ps s t) :
    t.dec = { s.dec with lastIas := t.dec.lastIas, lastCommand := t.dec.lastCommand } := by
  obtain ⟨h1, h2, h3, h4⟩ := h.counters
  dsimp only
  rw [← h.conn, ← h.cache, ← h1, ← h2, ← h3, ← h4]

/-- The parsers above LMP keep the table and the counters. -/
theorem Side.calm (h : Side m whole text s s') {t t' : St} {ps ps' : List Parser}
    (ht : Twin whole text t t') (hc : Calm ps s t) (hc' : Calm ps' s' t') :
    Side m whole text t t' := by
  refine ⟨ht, ?_⟩
  rw [hc'.dec_eq, h.dec, ht.ias, ht.command, hc.dec_eq]
  cases m <;> rfl

theorem Side.append (h : Side m whole text s s') {t t' : String} (ht : text → t' = t) :
    Side m whole text (s.append t) (s'.append t') := ⟨h.toTwin.append ht, h.dec⟩

theorem Side.print (h : Side m whole text s s') (t : String) :
    Side m whole text (s.print t) (s'.print t) := ⟨h.toTwin.print t, h.dec⟩

theorem Side.pull (h : Side m whole text s s') (k : ℕ) :
    Side m whole text (s.pull k) (s'.pull k) := ⟨h.toTwin.pull k, h.dec⟩

theorem Side.pick (h : Side m whole text s s') (r r' : Option LsapState) :
    Side m whole text (s.pick r) (s'.pick r') :=
  ⟨⟨h.len, h.bytes, h.ias, h.command, h.calls, h.str, h.msgs⟩, h.dec⟩

theorem Side.setCache (h : Side m whole text s s') (i : Option Slot) :
    Side m whole text (s.setCache i) (s'.setCache i) := by
  refine ⟨⟨h.len, h.bytes, h.ias, h.command, h.calls, h.str, h.msgs⟩, ?_⟩
  simp only [St.setCache, h.dec]
  cases m <;> rfl

/-- A new table. -/
theorem Side.table (h : Side m whole text s s') {conn conn' : Slot → LsapState}
    (hc : conn' = fun i => (conn i).seen m) :
    Side m whole text { s with dec := { s.dec with conn := conn } }
      { s' with dec := { s'.dec with conn := conn' } } := by
  refine ⟨⟨h.len, h.bytes, h.ias, h.command, h.calls, h.str, h.msgs⟩, ?_⟩
  simp only [h.dec, hc, seen_setConn]

theorem Side.setConn (h : Side m whole text s s') (i : Slot) {c c' : LsapState}
    (hc : c' = c.seen m) : Side m whole text (s.setConn i c) (s'.setConn i c') := by
  refine h.table ?_
  rw [hc, h.dec, seen_conn, seen_update]

theorem Side.ite {p p' : Prop} [Decidable p] [Decidable p'] {a b a' b' : St} (hp : p' = p)
    (h1 : p → Side m whole text a a') (h2 : ¬ p → Side m whole text b b') :
    Side m whole text (if p then a else b) (if p' then a' else b') := ite_rel _ hp h1 h2

/-! ### Looking up a connection -/

/-- The pair of selectors as the table of the second run has it. -/
def turn (m : Bool) (p : UInt8 × UInt8) : UInt8 × UInt8 := if m then p.swap else p

theorem hasPair_seen (m : Bool) (c : LsapState) (p : UInt8 × UInt8) :
    (c.seen m).hasPair (turn m p).1 (turn m p).2 = c.hasPair p.1 p.2 := by
  cases m
  · rfl
  · exact Bool.and_comm _ _

theorem find_seen (m : Bool) (d : Decoder) (p : UInt8 × UInt8) :
    (d.seen m).tracker.find (turn m p) = d.tracker.find p := by
  have hfirst : firstSlot (d.seen m).conn (turn m p).1 (turn m p).2 = firstSlot d.conn p.1 p.2 := by
    simp only [firstSlot, seen_conn, hasPair_seen]
  unfold Tracker.find findConnection Decoder.tracker
  simp only [seen_cache, hfirst]
  cases d.connCache with
  | none => rfl
  | some c => exact if_congr (by rw [seen_conn, hasPair_seen]) rfl rfl

theorem pair_facing {type' : ℤ} {h : LmHead} (hf : Facing m h.type type') :
    { h with type := type' }.pair = turn m h.pair := by
  unfold Facing at hf
  unfold LmHead.pair turn
  cases m <;> by_cases ht : h.type = 0 <;> simp_all

theorem ofConnect_facing {type' : ℤ} {h : LmHead} (hf : Facing m h.type type') (q : IasQuery) :
    LsapState.ofConnect q { h with type := type' } = (LsapState.ofConnect q h).seen m := by
  unfold Facing at hf
  unfold LsapState.ofConnect newConnection
  cases m <;> by_cases ht : h.type = 0 <;> simp_all [LsapState.seen, LsapState.mirror]

theorem dirText_facing {type type' : ℤ} (hf : Facing m type type') (hm : m = false) :
    dirText type' = dirText type := by
  subst hm
  unfold dirText
  exact if_congr hf rfl rfl

theorem Side.find_eq (h : Side m whole text s s') {hd : LmHead} {type' : ℤ}
    (hf : Facing m hd.type type') :
    s'.dec.tracker.find { hd with type := type' }.pair = s.dec.tracker.find hd.pair := by
  rw [h.dec, pair_facing hf, find_seen]

theorem Side.found (h : Side m whole text s s') {hd : LmHead} {type' : ℤ}
    (hf : Facing m hd.type type') :
    Side m whole text (s.found hd) (s'.found { hd with type := type' }) := by
  unfold St.found
  rw [h.find_eq hf]
  exact (h.setCache _).pick _ _

end

section
variable {m : Bool} {whole text : Prop} {s s' : St} {env env' : Env}

/-! ### LM frames -/

theorem side_connectParsers (h : Side m whole text s s') (c : LsapState)
    (hf : whole ∨ ConnectFits c s.buf) :
    Side m whole text (connectParsers c s) (connectParsers c s') := by
  have h1 : Twin whole text (if c.ttp then parseIrttpConnect s else s)
      (if c.ttp then parseIrttpConnect s' else s') :=
    Twin.ite rfl (fun ht => twin_parseIrttpConnect h.toTwin (hf.imp_right fun hf => hf.1 ht))
      fun _ => h.toTwin
  have hbuf : (if c.ttp then parseIrttpConnect s else s).buf =
      if c.ttp then ttpConnectRest s.buf else s.buf := by
    rw [apply_ite St.buf, buf_parseIrttpConnect]
  have h2 := Twin.ite (p := c.ircomm = true) rfl
    (fun hi => twin_parseIrcommConnect h1 (hf.imp_right fun hf => by rw [hbuf]; exact hf.2 hi))
    fun _ => h1
  exact h.calm (Twin.ite rfl (fun _ => twin_parseIrnet h2) fun _ => h2)
    (upper_connectParsers c s).toCalm (upper_connectParsers c s').toCalm

theorem dataParsers_invalid {c : LsapState} (hv : ¬ c.valid = true) (env : Env) (cmd : UInt8) (s : St) :
    dataParsers env c cmd s = s := by
  simp [dataParsers, hv]

theorem twin_dataParsers (hwt : whole → ¬ text) (h : Twin whole text s s') {c : LsapState}
    (hv : c.valid = true) (cmd : UInt8) (hf : whole ∨ DataFits c cmd s.dec.lastCommand s.buf) :
    Twin whole text (dataParsers env c cmd s) (dataParsers env' c cmd s') := by
  have hf := hf.imp_right fun hf => hf hv
  simp only at hf
  simp only [dataParsers, hv, true_and]
  have h1 : Twin whole text (if c.ttp then parseIrttp s else s)
      (if c.ttp then parseIrttp s' else s') :=
    Twin.ite rfl (fun ht => twin_parseIrttp h (hf.imp_right fun hf => hf.1 ht)) fun _ => h
  have hdec : (if c.ttp then parseIrttp s else s).dec = s.dec := by
    rw [apply_ite St.dec, dec_parseIrttp, ite_self]
  have hbuf : (if c.ttp then parseIrttp s else s).buf = if c.ttp then s.buf.pull 1 else s.buf := by
    rw [apply_ite St.buf, buf_parseIrttp]
  generalize (if c.ttp then parseIrttp s else s) = s₁ at h1 hdec hbuf ⊢
  generalize (if c.ttp then parseIrttp s' else s') = s₁' at h1 ⊢
  rw [← hbuf, ← hdec] at hf
  have h2 : Twin whole text (if c.obex then parseObex env s₁ cmd else s₁)
      (if c.obex then parseObex env' s₁' cmd else s₁') :=
    Twin.ite rfl (fun ho => twin_parseObex hwt env env' h1 cmd (hf.imp_right fun hf => hf.2.1 ho))
      fun _ => h1
  have hbuf₂ : (if c.obex then parseObex env s₁ cmd else s₁).buf =
      if c.obex then obexRest cmd s₁.dec.lastCommand s₁.buf else s₁.buf := by
    rw [apply_ite St.buf, buf_parseObex]
  generalize (if c.obex then parseObex env s₁ cmd else s₁) = s₂ at h2 hbuf₂ ⊢
  generalize (if c.obex then parseObex env' s₁' cmd else s₁') = s₂' at h2 ⊢
  rw [← hbuf₂] at hf
  have h3 : Twin whole text
      (if c.ircomm then (if c.ttp then parseIrcommTtp s₂ else parseIrcommLmp s₂) else s₂)
      (if c.ircomm then (if c.ttp then parseIrcommTtp s₂' else parseIrcommLmp s₂') else s₂') :=
    Twin.ite rfl
      (fun hi => Twin.ite rfl (fun ht => twin_parseIrcommTtp h2 (hf.imp_right fun hf => hf.2.2 hi ht))
        fun _ => twin_parseIrcommLmp h2)
      fun _ => h2
  exact Twin.ite rfl (fun _ => twin_parseIrnet h3) fun _ => h3

theorem side_dataParsers (hwt : whole → ¬ text) (h : Side m whole text s s') (c : LsapState)
    (cmd : UInt8) (hf : whole ∨ DataFits c cmd s.dec.lastCommand s.buf) :
    Side m whole text (dataParsers env c cmd s) (dataParsers env' c cmd s') := by
  by_cases hv : c.valid = true
  · exact h.calm (twin_dataParsers hwt h.toTwin hv cmd hf) (upper_dataParsers env c cmd s).toCalm
      (upper_dataParsers env' c cmd s').toCalm
  · rw [dataParsers_invalid hv, dataParsers_invalid hv]
    exact h

/-- `TinyTP` as it is forced on a frame of an unknown connection. -/
theorem side_parseIrttpConnect (h : Side m whole text s s') (hf : whole ∨ TtpConnectFits s.buf) :
    Side m whole text (parseIrttpConnect s) (parseIrttpConnect s') :=
  h.calm (twin_parseIrttpConnect h.toTwin hf) (upper_parseIrttpConnect s).toCalm
    (upper_parseIrttpConnect s').toCalm

theorem side_parseIrttp (h : Side m whole text s s') (hf : whole ∨ TtpFits s.buf) :
    Side m whole text (parseIrttp s) (parseIrttp s') :=
  h.calm (twin_parseIrttp h.toTwin hf) (upper_parseIrttp s).toCalm (upper_parseIrttp s').toCalm

theorem findFree_seen (m : Bool) (conn : Slot → LsapState) :
    findFreeConnection (fun i => (conn i).seen m) = findFreeConnection conn := by
  simp only [findFreeConnection, seen_valid]

variable {type' : ℤ} (hd : LmHead)

theorem side_connectCmd (hcfg : env'.cfg = env.cfg) (h : Side m whole text s s')
    (hface : Facing m hd.type type') (hf : whole ∨ ConnectCmdFits env.cfg s.dec hd s.buf) :
    Side m whole text (lmConnectCmd env s hd.caddr hd.type hd.slsapSel hd.dlsapSel)
      (lmConnectCmd env' s' hd.caddr type' hd.slsapSel hd.dlsapSel) := by
  have ha : Side m whole text (s.append "CONN_CMD ") (s'.append "CONN_CMD ") := h.append fun _ => rfl
  unfold ConnectCmdFits at hf
  refine Side.ite (congrArg (fun q : IasQuery => hd.dlsapSel = q.lsapSel) h.ias) (fun hsel => ?_)
    fun hsel => ?_
  · have hfree : findFreeConnection (s'.append "CONN_CMD ").dec.conn =
        findFreeConnection s.dec.conn := by
      rw [ha.dec, seen_conn, findFree_seen]
      rfl
    have hfree' : findFreeConnection (s.append "CONN_CMD ").dec.conn =
        findFreeConnection s.dec.conn := rfl
    rw [hfree, hfree']
    have hsel' : hd.dlsapSel = s.dec.lastIas.lsapSel := hsel
    rw [if_pos hsel'] at hf
    cases hi : findFreeConnection s.dec.conn with
    | none => exact ha.print _
    | some i =>
      have hc : newConnection s'.dec.lastIas hd.caddr type' hd.slsapSel hd.dlsapSel =
          (LsapState.ofConnect s.dec.lastIas hd).seen m := by
        rw [h.ias, ← ofConnect_facing hface]
        rfl
      have hs := (ha.setConn i hc).pick (some (LsapState.ofConnect s.dec.lastIas hd))
        (some (newConnection s'.dec.lastIas hd.caddr type' hd.slsapSel hd.dlsapSel))
      have e : connectParsers (newConnection s'.dec.lastIas hd.caddr type' hd.slsapSel hd.dlsapSel) =
          connectParsers (LsapState.ofConnect s.dec.lastIas hd) := by
        rw [hc, connectParsers_seen]
      change Side m whole text (connectParsers (LsapState.ofConnect s.dec.lastIas hd) _)
        (connectParsers (newConnection s'.dec.lastIas hd.caddr type' hd.slsapSel hd.dlsapSel) _)
      rw [e]
      exact side_connectParsers hs _ (hf.imp_right fun hf => hf (by rw [hi]; exact Option.some_ne_none i))
  · have hsel' : ¬ hd.dlsapSel = s.dec.lastIas.lsapSel := hsel
    rw [if_neg hsel'] at hf
    refine Side.ite (by rw [hcfg]) (fun hx => ?_) fun _ => ha.pick _ _
    exact side_parseIrttpConnect (ha.pick none none) (hf.imp_right fun hf => hf hx)

theorem lmConnectRsp_eq (env : Env) (s : St) (hd : LmHead) :
    lmConnectRsp env s hd.type hd.slsapSel hd.dlsapSel =
      match s.dec.tracker.find hd.pair with
      | some i => connectParsers (s.dec.conn i) ((s.append "CONN_RSP ").found hd)
      | none => if env.cfg.forceTtp ∧ hd.slsapSel ≠ 0x00 then
          parseIrttpConnect ((s.append "CONN_RSP ").found hd) else (s.append "CONN_RSP ").found hd := by
  unfold lmConnectRsp
  simp only [find_eq, show (s.append "CONN_RSP ").dec = s.dec from rfl]
  cases s.dec.tracker.find hd.pair <;> rfl

theorem side_connectRsp (hcfg : env'.cfg = env.cfg) (h : Side m whole text s s')
    (hface : Facing m hd.type type') (hf : whole ∨ ConnectRspFits env.cfg s.dec hd s.buf) :
    Side m whole text (lmConnectRsp env s hd.type hd.slsapSel hd.dlsapSel)
      (lmConnectRsp env' s' type' hd.slsapSel hd.dlsapSel) := by
  have ha : Side m whole text (s.append "CONN_RSP ") (s'.append "CONN_RSP ") := h.append fun _ => rfl
  have hs := ha.found hface
  have e' := lmConnectRsp_eq env' s' { hd with type := type' }
  simp only [h.find_eq hface] at e'
  unfold ConnectRspFits at hf
  rw [lmConnectRsp_eq, e']
  cases hi : s.dec.tracker.find hd.pair with
  | some i =>
    rw [hi] at hf
    simp only [h.dec, seen_conn, connectParsers_seen]
    exact side_connectParsers hs _ hf
  | none =>
    rw [hi] at hf
    refine Side.ite (by rw [hcfg]) (fun hx => ?_) fun _ => hs
    exact side_parseIrttpConnect hs (hf.imp_right fun hf => hf hx)

theorem side_disconnect (h : Side m whole text s s') (hface : Facing m hd.type type') :
    Side m whole text (lmDisconnect s hd.type hd.slsapSel hd.dlsapSel)
      (lmDisconnect s' type' hd.slsapSel hd.dlsapSel) := by
  have ha : Side m whole text (s.append "DISC ") (s'.append "DISC ") := h.append fun _ => rfl
  have hs := ha.found hface
  have e' := find_eq (s'.append "DISC ") { hd with type := type' }
  rw [ha.find_eq hface] at e'
  simp only at e'
  unfold lmDisconnect
  simp only [find_eq, e']
  cases (s.append "DISC ").dec.tracker.find hd.pair with
  | some i =>
    refine hs.setConn i ?_
    rw [hs.dec, seen_conn, seen_invalid]
  | none => exact hs

/-- A data frame behind the information service. -/
def iasParsed (s : St) (hd : LmHead) : St :=
  if hd.dlsapSel = 0x00 then parseIriapCommand s
  else if hd.slsapSel = 0x00 then parseIriapResponse s else s

theorem lmData_eq (env : Env) (s : St) (cmd : UInt8) (hd : LmHead) :
    lmData env s hd.type cmd hd.slsapSel hd.dlsapSel =
      match (iasParsed s hd).dec.tracker.find hd.pair with
      | some i => dataParsers env ((iasParsed s hd).dec.conn i) cmd ((iasParsed s hd).found hd)
      | none => if hd.dlsapSel ≠ 0x00 ∧ hd.slsapSel ≠ 0x00 ∧ env.cfg.forceTtp then
          parseIrttp ((iasParsed s hd).found hd) else (iasParsed s hd).found hd := by
  have e : (if hd.dlsapSel = 0x00 then parseIriapCommand s
      else if hd.slsapSel = 0x00 then parseIriapResponse s else s) = iasParsed s hd := rfl
  unfold lmData
  simp only [e, find_eq]
  cases (iasParsed s hd).dec.tracker.find hd.pair <;> rfl

theorem iasParsed_calm (s : St) (hd : LmHead) :
    Calm (iasCalls s.dec.lastIas (iasOf s hd.slsapSel hd.dlsapSel)) s (iasParsed s hd) :=
  (ias_calm s hd.slsapSel hd.dlsapSel).1

theorem iasParsed_find (s : St) (hd : LmHead) (p : UInt8 × UInt8) :
    (iasParsed s hd).dec.tracker.find p = s.dec.tracker.find p := by
  have hc := iasParsed_calm s hd
  simp only [Tracker.find, Decoder.tracker, hc.conn, hc.cache]

theorem side_iasParsed (h : Side m whole text s s')
    (hf : whole ∨ if hd.dlsapSel = 0 then QueryFits s.buf
      else if hd.slsapSel = 0 then ResponseFits s.dec.lastIas.ircomm s.buf else True) (t : ℤ) :
    Side m whole text (iasParsed s hd) (iasParsed s' { hd with type := t }) := by
  refine h.calm (Twin.ite rfl (fun h0 => ?_) fun h0 => Twin.ite rfl (fun h1 => ?_) fun _ => h.toTwin)
    (iasParsed_calm s hd) (iasParsed_calm s' { hd with type := t })
  · rw [if_pos h0] at hf
    exact twin_parseIriapCommand h.toTwin hf
  · rw [if_neg h0, if_pos h1] at hf
    exact twin_parseIriapResponse h.toTwin hf

theorem buf_iasParsed (s : St) (hd : LmHead) :
    (iasParsed s hd).buf =
      if hd.dlsapSel ≠ 0 ∧ hd.slsapSel = 0 then responseRest s.dec.lastIas.ircomm s.buf
      else s.buf := by
  unfold iasParsed
  by_cases h0 : hd.dlsapSel = 0
  · rw [if_pos h0, if_neg (fun h => h.1 h0), buf_parseIriapCommand]
  by_cases h1 : hd.slsapSel = 0
  · rw [if_neg h0, if_pos h1, if_pos ⟨h0, h1⟩, buf_parseIriapResponse]
  · rw [if_neg h0, if_neg h1, if_neg fun h => h1 h.2]

theorem command_iasParsed (s : St) (hd : LmHead) :
    (iasParsed s hd).dec.lastCommand = s.dec.lastCommand := by
  have hopen := congrArg Decoder.lastCommand (iriapOpened_dec s)
  unfold iasParsed
  split_ifs
  · unfold parseIriapCommand
    simp only
    split_ifs <;> rfl
  · change (if s.byte 1 = iasSuccess then parseIriasValue ((iriapOpened s).append "Success ")
      else if s.byte 1 = iasClassUnknown then (iriapOpened s).append "No such class "
      else if s.byte 1 = iasAttribUnknown then (iriapOpened s).append "No such attribute "
      else (iriapOpened s).append "Unknown response code ").dec.lastCommand = s.dec.lastCommand
    split_ifs
    · rw [command_parseIriasValue]
      exact hopen
    all_goals exact hopen
  · rfl

theorem side_data (hwt : whole → ¬ text) (hcfg : env'.cfg = env.cfg) (h : Side m whole text s s')
    (hface : Facing m hd.type type') (cmd : UInt8)
    (hf : whole ∨ LmDataFits env.cfg s.dec cmd hd s.buf) :
    Side m whole text (lmData env s hd.type cmd hd.slsapSel hd.dlsapSel)
      (lmData env' s' type' cmd hd.slsapSel hd.dlsapSel) := by
  have h1 := side_iasParsed hd h (hf.imp_right And.left) type'
  have hs := h1.found hface
  have e' := lmData_eq env' s' cmd { hd with type := type' }
  simp only [h1.find_eq hface] at e'
  -- what the information service leaves is what the connection is decoded with
  have hf := hf.imp_right And.right
  simp only [← buf_iasParsed, ← command_iasParsed s hd, ← (iasParsed_calm s hd).conn,
    ← iasParsed_find s hd] at hf
  rw [lmData_eq, e']
  cases hi : (iasParsed s hd).dec.tracker.find hd.pair with
  | some i =>
    rw [hi] at hf
    simp only [h1.dec, seen_conn, dataParsers_seen]
    exact side_dataParsers hwt hs _ cmd hf
  | none =>
    rw [hi] at hf
    refine Side.ite (by rw [hcfg]) (fun hx => ?_) fun _ => hs
    exact side_parseIrttp hs (hf.imp_right fun hf => hf hx)

theorem side_irlmp (hwt : whole → ¬ text) (hcfg : env'.cfg = env.cfg) (h : Side m whole text s s')
    {type type' : ℤ} (hface : Facing m type type') (caddr cmd : UInt8)
    (hf : whole ∨ LmFits env.cfg s.dec caddr type cmd s.buf) :
    Side m whole text (parseIrlmp env s caddr type cmd) (parseIrlmp env' s' caddr type' cmd) := by
  have h0 : s'.byte 0 = s.byte 0 := h.bytes 0 (hf.imp_right fun hf => Nat.lt_of_lt_of_le Nat.two_pos hf.1)
  have h1 : s'.byte 1 = s.byte 1 := h.bytes 1 (hf.imp_right And.left)
  have hf := hf.imp_right And.right
  have hp : Side m whole text ((s.pull 2).append
        s!"LM slsap={fmtX 2 (s.byte 1).toNat} dlsap={fmtX 2 (s.byte 0 &&& lsapMask).toNat} ")
      ((s'.pull 2).append
        s!"LM slsap={fmtX 2 (s.byte 1).toNat} dlsap={fmtX 2 (s.byte 0 &&& lsapMask).toNat} ") :=
    (h.pull 2).append fun _ => rfl
  simp only at hf
  unfold parseIrlmp
  rw [h0, h1]
  by_cases hc : s.byte 0 &&& controlBit ≠ 0
  · rw [if_pos (show s.buf.byte 0 &&& controlBit ≠ 0 from hc)] at hf
    rw [if_pos hc, if_pos hc]
    have hctl : (s'.pull 2).byte 0 = (s.pull 2).byte 0 :=
      (h.pull 2).bytes 0 (hf.imp_right And.left)
    have hp2 := hp.pull 2
    refine Side.ite (congrArg (· = connectCmd) hctl) (fun hx => ?_) fun _ =>
      Side.ite (congrArg (· = connectRsp) hctl) (fun hx => ?_) fun _ =>
      Side.ite (congrArg (· = disconnect) hctl) (fun _ => ?_) fun _ => hp2
    · exact side_connectCmd ⟨caddr, type, s.byte 1, s.byte 0 &&& lsapMask⟩ hcfg hp2 hface
        (hf.imp_right fun hf => hf.2.1 hx)
    · exact side_connectRsp ⟨caddr, type, s.byte 1, s.byte 0 &&& lsapMask⟩ hcfg hp2 hface
        (hf.imp_right fun hf => hf.2.2 hx)
    · exact side_disconnect ⟨caddr, type, s.byte 1, s.byte 0 &&& lsapMask⟩ hp2 hface
  · rw [if_neg (show ¬ (s.buf.byte 0 &&& controlBit ≠ 0) from hc)] at hf
    rw [if_neg hc, if_neg hc]
    exact side_data ⟨caddr, type, s.byte 1, s.byte 0 &&& lsapMask⟩ hwt hcfg hp hface cmd hf

theorem side_uiIrlmp (hwt : whole → ¬ text) (h : Side m whole text s s')
    (hf : whole ∨ UiFits s.dec s.buf) :
    Side m whole text (parseUiIrlmp env s) (parseUiIrlmp env' s') := by
  have h0 : s'.byte 0 = s.byte 0 := h.bytes 0 (hf.imp_right fun hf => Nat.lt_of_lt_of_le Nat.two_pos hf.1)
  have h1 : s'.byte 1 = s.byte 1 := h.bytes 1 (hf.imp_right And.left)
  have hf := hf.imp_right And.right
  unfold parseUiIrlmp
  rw [h0, h1]
  have hp := (h.pull 2).append (t := s!"LM slsap={fmtX 2 (s.byte 1).toNat} dlsap={fmtX 2
    (s.byte 0 &&& lsapMask).toNat} ") fun _ => rfl
  refine Side.ite rfl (fun hx => ?_) fun _ => hp
  have hf := hf.imp_right fun hf => hf hx
  have hu : (s'.pull 2).byte 0 = (s.pull 2).byte 0 := (h.pull 2).bytes 0 (hf.imp_right And.left)
  have hp1 := (hp.pull 1).append
    (fun _ => congrArg (fun b : UInt8 => s!" Ultra-PID={fmtX 2 (b &&& 0x7f).toNat} ") hu)
  refine Side.ite (congrArg (fun b : UInt8 => b &&& 0x7f = 0x01) hu) (fun hx => ?_) fun _ => hp1
  exact (hp1.pull 1).calm
    (twin_parseObex hwt env env' (hp1.pull 1).toTwin 1 (hf.imp_right fun hf => hf.2 hx))
    (upper_parseObex env _ 1).toCalm (upper_parseObex env' _ 1).toCalm

/-! ### QoS parameters -/

theorem byteValue_congr (hb : env'.beyond = env.beyond) (byte : ℕ) (array : List ℕ) :
    byteValue env' byte array = byteValue env byte array := by
  unfold byteValue indexValue
  rw [hb]

theorem twin_appendQos (hb : text → env'.beyond = env.beyond) (h : Twin whole text s s')
    (label : String) {pv pv' : ℕ} (hpv : pv' = pv) (array : List ℕ) (unit : String) :
    Twin whole text (appendQos env s label pv array unit) (appendQos env' s' label pv' array unit) := by
  subst hpv
  refine Twin.append (Twin.ite rfl (fun _ => h.print _) fun _ => h) fun ht => ?_
  rw [byteValue_congr (hb ht)]

theorem qosParamSize_pos (pi pl : ℕ) : 1 ≤ qosParamSize pi pl := by
  unfold qosParamSize
  split_ifs <;> omega

theorem twin_irlapParam (hb : text → env'.beyond = env.beyond) (h : Twin whole text s s') {n : ℕ}
    (hf : whole ∨
      n + qosParamSize (s.byte n &&& 0x7f).toNat (s.byte (n + 1)).toNat ≤ s.buf.len) :
    Twin whole text (irlapParam env s n) (irlapParam env' s' n) := by
  have hpos := qosParamSize_pos (s.byte n &&& 0x7f).toNat (s.byte (n + 1)).toNat
  have h0 : s'.byte n = s.byte n := h.bytes n (hf.imp_right fun hf => by omega)
  have hv : 3 ≤ qosParamSize (s.byte n &&& 0x7f).toNat (s.byte (n + 1)).toNat →
      s'.byte (n + 1) = s.byte (n + 1) ∧ s'.byte (n + 2) = s.byte (n + 2) := fun h3 =>
    ⟨h.bytes _ (hf.imp_right fun hf => by omega), h.bytes _ (hf.imp_right fun hf => by omega)⟩
  refine ite_rel _ (congrArg (fun b : UInt8 => (b &&& 0x7f).toNat = piBaudRate) h0) (fun hx => ?_)
    fun hx => ?_
  · obtain ⟨h1, h2⟩ := hv (by unfold qosParamSize; rw [if_pos hx]; split_ifs <;> omega)
    refine twin_appendQos hb h _ ?_ _ _
    rw [h1, h2]
    refine ite_rel (fun a b => b = a) rfl (fun hl => ?_) fun _ => rfl
    have h3 : s'.byte (n + 3) = s.byte (n + 3) := h.bytes _ (hf.imp_right fun hf => by
      unfold qosParamSize at hf
      rw [if_pos hx, if_pos hl] at hf
      omega)
    rw [h3]
  · rw [h0]
    cases hq : qosTable (s.byte n &&& 0x7f).toNat with
    | none => exact h
    | some r =>
      obtain ⟨-, h2⟩ := hv (by
        unfold qosParamSize
        rw [if_neg hx, if_pos (by rw [hq]; rfl)])
      exact twin_appendQos hb h _ (congrArg UInt8.toNat h2) _ _

theorem qosFits_step {clen n : ℕ} {b : GNetBuf} (hf : QosFits clen b n) (hn : n < clen) :
    n + qosParamSize (b.byte n &&& 0x7f).toNat (b.byte (n + 1)).toNat ≤ b.len ∧
      (n + 2 < clen → n + 2 ≤ b.len) ∧ QosFits clen b (n + ((b.byte (n + 1)).toNat + 2)) := by
  rw [QosFits, if_pos hn] at hf
  exact hf

theorem irlapParamsLoop_done {clen n : ℕ} (env : Env) (s : St) (hn : clen ≤ n) :
    irlapParamsLoop env clen s n = s := by
  rw [irlapParamsLoop, if_neg (Nat.not_lt.2 hn)]

theorem buf_irlapParam (env : Env) (s : St) (n : ℕ) : (irlapParam env s n).buf = s.buf := by
  unfold irlapParam appendQos
  simp only
  split
  · split_ifs <;> rfl
  · split
    · split_ifs <;> rfl
    · rfl

theorem twin_irlapParamsLoop (hb : text → env'.beyond = env.beyond) (clen : ℕ) (s : St) (n : ℕ) :
    ∀ s' : St, Twin whole text s s' → (whole ∨ QosFits clen s.buf n) →
    Twin whole text (irlapParamsLoop env clen s n) (irlapParamsLoop env' clen s' n) := by
  fun_induction irlapParamsLoop env clen s n with
  | case1 s n hn ih =>
    intro s' h hf
    have hstep := hf.imp_right fun hf => qosFits_step hf hn
    have e : irlapParamsLoop env' clen s' n = irlapParamsLoop env' clen (irlapParam env' s' n)
        (n + ((s'.byte (n + 1)).toNat + 2)) := by
      rw [irlapParamsLoop, if_pos hn]
    have h1 := twin_irlapParam hb h (hstep.imp_right And.left)
    rw [e]
    by_cases h2 : n + 2 < clen
    · have hp : s'.byte (n + 1) = s.byte (n + 1) :=
        h.bytes _ (hstep.imp_right fun hs => by have := hs.2.1 h2; omega)
      rw [hp]
      exact ih _ h1 (hstep.imp_right fun hs => by rw [buf_irlapParam]; exact hs.2.2)
    · rw [irlapParamsLoop_done _ _ (by omega), irlapParamsLoop_done _ _ (by omega)]
      exact h1
  | case2 s n hn =>
    intro s' h _
    rw [irlapParamsLoop_done _ _ (Nat.not_lt.1 hn)]
    exact h

theorem twin_parseIField (hb : text → env'.beyond = env.beyond) (h : Twin whole text s s') (n : ℕ)
    (hf : whole ∨ ((s.buf.pull n).len ≠ 0 →
      QosFits (UInt8.ofNat (s.buf.pull n).len).toNat (s.buf.pull n) 0)) :
    Twin whole text (parseIField env n s) (parseIField env' n s') := by
  have hp := h.pull n
  refine Twin.ite (congrArg (· ≠ 0) hp.len) (fun hl => ?_) fun _ => hp
  rw [hp.len]
  exact (twin_irlapParamsLoop hb _ _ _ _ (hp.append fun _ => rfl)
    (hf.imp_right fun hf => hf hl)).pull _

end

end Irdadump
