import IrdaUtils.Lib.Runs
import IrdaUtils.Proofs.PsionHeader

/-! A file transfer between `sendfile` and `handle_client`. The handshake goes through one
state at a time; behind it, the file is spread over what was written, what is on its way and
what is still to be read, in this order, whatever the two sides do next. -/

namespace Psion

open Decimal

/-! ### The invariant -/

/-- Behind the handshake. `sender = ack` is the client's reply still on its way. -/
structure Moving (j : Job) (w : World) : Prop where
  reply : (w.sender = .ack ∧ w.toSender = ackText) ∨
    ((w.sender = .loop ∨ w.sender = .lastRead ∨ w.sender = .closed) ∧ w.toSender = [])
  client : w.client = .loop ∨ w.client = .closed
  hdr : w.hdr = j.announced
  spread : w.out ++ w.toClient ++ w.file = j.content
  cnt : w.cnt = BitVec.ofNat 32 w.out.length
  eof : w.eof = true → w.file = []
  last : w.sender = .lastRead ∨ w.sender = .closed → w.eof = true
  finished : w.client = .closed → w.out = j.content ∧ w.clientWarned = false
  sender : w.sender = .closed → w.client = .closed

inductive Inv (j : Job) (w : World) : Prop where
  | idle : w = .init j → Inv j w
  | offered : w = { World.init j with sender := .ack, toClient := j.header } → Inv j w
  | accepted : w = { World.init j with sender := .ack, client := .ack, hdr := j.announced } →
      Inv j w
  | moving : Moving j w → Inv j w

theorem cnt_lt_iff {j : Job} {w : World} (h : Moving j w) (hn : j.content.length < 2 ^ 31) :
    w.cnt < w.hdr.fsize ↔ w.out.length < j.content.length := by
  have hle : w.out.length ≤ j.content.length := by
    have := congrArg List.length h.spread
    simp only [List.length_append] at this
    omega
  rw [h.cnt, h.hdr, Job.announced, BitVec.lt_def, BitVec.toNat_ofNat, BitVec.toNat_ofNat,
    Nat.mod_eq_of_lt (by omega), Nat.mod_eq_of_lt (by omega)]

theorem out_eq_content {j : Job} {w : World} (h : Moving j w)
    (hlen : ¬ w.out.length < j.content.length) : w.out = j.content := by
  have hl := congrArg List.length h.spread
  simp only [List.length_append] at hl
  have h1 : w.toClient = [] := List.eq_nil_of_length_eq_zero (by omega)
  have h2 : w.file = [] := List.eq_nil_of_length_eq_zero (by omega)
  simpa [h1, h2] using h.spread

section Steps

variable {j : Job} {w w' : World}

theorem idle_step (h : Step j (.init j) w') : Inv j w' := by
  cases h with
  | writeHeader _ => exact .offered rfl
  | readHeader _ hne _ => exact absurd rfl hne
  | headerTooLong _ hl => exact absurd hl (by simp [World.init, buflen])
  | headerEof _ _ hg => rcases hg with h | h <;> cases h
  | readAck h | ackEof h | fread _ _ _ h | freadEof h | leaveLoop h | lastData h | lastEof h
  | writeAck h | readData _ _ h | dataEof h | finish h => cases h

theorem offered_step (hh : j.header.length < buflen)
    (h : Step j { World.init j with sender := .ack, toClient := j.header } w') : Inv j w' := by
  cases h with
  | readHeader _ _ _ =>
    simp only [parseHeader_header j, Option.isSome_some, if_true, Option.getD_some]
    exact .accepted rfl
  | readAck _ hne => exact absurd rfl hne
  | ackEof _ _ hg => rcases hg with h | h <;> cases h
  | headerTooLong _ hl => exact absurd hh (Nat.not_lt.2 hl)
  | headerEof _ _ hg => rcases hg with h | h <;> cases h
  | writeHeader h | fread _ _ _ h | freadEof h | leaveLoop h | lastData h | lastEof h
  | writeAck h | readData _ _ h | dataEof h | finish h => cases h

theorem accepted_step
    (h : Step j { World.init j with sender := .ack, client := .ack, hdr := j.announced } w') :
    Inv j w' := by
  cases h with
  | writeAck _ =>
    refine .moving ⟨.inl ⟨rfl, rfl⟩, .inl rfl, rfl, rfl, rfl, ?_, ?_, ?_, ?_⟩
    · intro h; cases h
    · intro h; rcases h with h | h <;> cases h
    · intro h; cases h
    · intro h; cases h
  | readAck _ hne => exact absurd rfl hne
  | ackEof _ _ hg => rcases hg with h | h <;> cases h
  | writeHeader h | fread _ _ _ h | freadEof h | leaveLoop h | lastData h | lastEof h
  | readHeader h | headerTooLong h | headerEof h | readData _ _ h | dataEof h | finish h => cases h

theorem Moving.acked (hm : Moving j w) (h : w.sender ≠ .ack) :
    (w.sender = .loop ∨ w.sender = .lastRead ∨ w.sender = .closed) ∧ w.toSender = [] := by
  rcases hm.reply with ⟨e, -⟩ | h'
  · exact absurd e h
  · exact h'

theorem Moving.unacked (hm : Moving j w) (h : w.sender = .ack) : w.toSender = ackText := by
  rcases hm.reply with ⟨-, e⟩ | ⟨e | e | e, -⟩
  · exact e
  all_goals rw [h] at e; cases e

theorem moving_fread (hm : Moving j w) {chunk rest : List UInt8} {eof : Bool}
    (h : w.sender = .loop) (hfile : w.file = chunk ++ rest) (hend : eof = true → rest = []) :
    Moving j { w with
      file := rest, eof := eof, sent := w.sent + BitVec.ofNat 32 chunk.length
      toClient := w.toClient ++ chunk } := by
  refine ⟨hm.reply, hm.client, hm.hdr, ?_, hm.cnt, hend, ?_, hm.finished, hm.sender⟩
  · have hs := hm.spread
    rw [hfile] at hs
    simpa only [List.append_assoc] using hs
  · intro hl
    rcases hl with e | e <;> exact absurd (h.symm.trans e) (by decide)

theorem moving_readAck (hm : Moving j w) (h : w.sender = .ack) :
    Moving j { w with
      sender := if cstr (w.toSender.take (buflen - 1)) = ackText then .loop else .failed
      toSender := w.toSender.drop (buflen - 1) } := by
  have hto := hm.unacked h
  have hyes : cstr (ackText.take (buflen - 1)) = ackText := by decide
  have hdrop : ackText.drop (buflen - 1) = [] := by decide
  rw [hto, hdrop, if_pos hyes]
  refine ⟨.inr ⟨.inl rfl, rfl⟩, hm.client, hm.hdr, hm.spread, hm.cnt, hm.eof, ?_, hm.finished, ?_⟩
  · intro h
    rcases h with h | h <;> cases h
  · intro h
    cases h

theorem moving_readData (hm : Moving j w) {chunk rest : List UInt8} (h : w.client = .loop)
    (hto : w.toClient = chunk ++ rest) :
    Moving j { w with
      toClient := rest, out := w.out ++ chunk, cnt := w.cnt + BitVec.ofNat 32 chunk.length } := by
  refine ⟨hm.reply, hm.client, hm.hdr, ?_, ?_, hm.eof, hm.last, ?_, hm.sender⟩
  · have hs := hm.spread
    rw [hto] at hs
    simpa only [List.append_assoc] using hs
  · simp only [hm.cnt, List.length_append, BitVec.ofNat_add]
  · intro hc
    exact absurd (h.symm.trans hc) (by decide)

theorem moving_finish (hn : j.content.length < 2 ^ 31) (hm : Moving j w)
    (hge : ¬ w.cnt < w.hdr.fsize) :
    Moving j { w with client := .closed, clientWarned := decide (w.cnt ≠ w.hdr.fsize) } := by
  have hout : w.out = j.content := by
    rw [cnt_lt_iff hm hn] at hge
    exact out_eq_content hm hge
  have hcnt : w.cnt = w.hdr.fsize := by rw [hm.cnt, hm.hdr, hout]; rfl
  exact ⟨hm.reply, .inr rfl, hm.hdr, hm.spread, hm.cnt, hm.eof, hm.last,
    fun _ => ⟨hout, by simp [hcnt]⟩, fun _ => rfl⟩

/-- In the data phase the two sides only move bytes along, and neither gives up. -/
theorem moving_step (hn : j.content.length < 2 ^ 31) (hm : Moving j w) (h : Step j w w') :
    Moving j w' := by
  have hclient : ∀ p, w.client = p → p = .loop ∨ p = .closed := fun p e => e ▸ hm.client
  cases h with
  | writeHeader h =>
    rcases (hm.acked (by rw [h]; decide)).1 with e | e | e <;> rw [h] at e <;> cases e
  | readAck h _ => exact moving_readAck hm h
  | ackEof h he _ =>
    rw [hm.unacked h] at he
    exact absurd he (by decide)
  | fread chunk rest eof h heof hfile _ _ hend =>
    exact moving_fread hm h hfile hend
  | freadEof h _ hfile =>
    exact ⟨hm.reply, hm.client, hm.hdr, hm.spread, hm.cnt, fun _ => hfile, fun _ => rfl,
      hm.finished, hm.sender⟩
  | leaveLoop h heof =>
    obtain ⟨-, hto⟩ := hm.acked (by rw [h]; decide)
    exact ⟨.inr ⟨.inr (.inl rfl), hto⟩, hm.client, hm.hdr, hm.spread, hm.cnt, hm.eof,
      fun _ => heof, hm.finished, by simp⟩
  | lastData h hne => exact absurd (hm.acked (by rw [h]; decide)).2 hne
  | lastEof h hto hg =>
    have hc : w.client = .closed := by
      rcases hg with e | e
      · exact e
      · rcases hclient _ e with e' | e' <;> cases e'
    exact ⟨.inr ⟨.inr (.inr rfl), hto⟩, hm.client, hm.hdr, hm.spread, hm.cnt, hm.eof,
      fun _ => hm.last (.inl h), hm.finished, fun _ => hc⟩
  | readHeader h => rcases hclient _ h with e | e <;> cases e
  | headerTooLong h => rcases hclient _ h with e | e <;> cases e
  | headerEof h => rcases hclient _ h with e | e <;> cases e
  | writeAck h => rcases hclient _ h with e | e <;> cases e
  | readData chunk rest h _ hto _ _ => exact moving_readData hm h hto
  | dataEof h _ _ hg =>
    rcases hg with e | e
    · exact absurd (h.symm.trans (hm.sender e)) (by decide)
    · rcases (hm.acked (by rw [e]; decide)).1 with e' | e' | e' <;> rw [e] at e' <;> cases e'
  | finish _ hge => exact moving_finish hn hm hge

theorem inv_step (hn : j.content.length < 2 ^ 31) (hh : j.header.length < buflen) (hi : Inv j w)
    (h : Step j w w') : Inv j w' := by
  cases hi with
  | idle e => exact idle_step (e ▸ h)
  | offered e => exact offered_step hh (e ▸ h)
  | accepted e => exact accepted_step (e ▸ h)
  | moving hm => exact .moving (moving_step hn hm h)

/-! ### Progress and termination -/

theorem sender_loop_progress (h : w.sender = .loop) : ∃ w', Step j w w' := by
  cases heof : w.eof with
  | true => exact ⟨_, .leaveLoop h heof⟩
  | false =>
    cases hf : w.file with
    | nil => exact ⟨_, .freadEof h heof hf⟩
    | cons b bs =>
      exact ⟨_, .fread [b] bs false h heof hf (by simp) (by simp [buflen]) (by simp)⟩

/-- With the file behind it, the client still finds what it has not read. -/
theorem client_loop_progress (hn : j.content.length < 2 ^ 31) (hm : Moving j w)
    (h : w.client = .loop) (hfile : w.file = []) : ∃ w', Step j w w' := by
  by_cases hlt : w.cnt < w.hdr.fsize
  · cases hto : w.toClient with
    | nil =>
      have hs := hm.spread
      rw [hto, hfile, List.append_nil, List.append_nil] at hs
      rw [cnt_lt_iff hm hn, hs] at hlt
      exact absurd hlt (lt_irrefl _)
    | cons b bs => exact ⟨_, .readData [b] bs h hlt hto (by simp) (by simp [buflen])⟩
  · exact ⟨_, .finish h hlt⟩

theorem moving_progress (hn : j.content.length < 2 ^ 31) (hm : Moving j w) :
    (∃ w', Step j w w') ∨ (w.sender = .closed ∧ w.client = .closed) := by
  rcases hm.reply with ⟨h, hto⟩ | ⟨h | h | h, hto⟩
  · exact .inl ⟨_, .readAck h (by rw [hto]; decide)⟩
  · exact .inl (sender_loop_progress h)
  · rcases hm.client with hc | hc
    · exact .inl (client_loop_progress hn hm hc (hm.eof (hm.last (.inl h))))
    · exact .inl ⟨_, .lastEof h hto (.inl hc)⟩
  · exact .inr ⟨h, hm.sender h⟩

theorem progress (hn : j.content.length < 2 ^ 31) (hh : j.header.length < buflen)
    (hi : Inv j w) : (∃ w', Step j w w') ∨ (w.sender = .closed ∧ w.client = .closed) := by
  have hne : j.header ≠ [] := by
    rw [header_eq j]
    simp [intField]
  cases hi with
  | idle e => subst e; exact .inl ⟨_, .writeHeader rfl⟩
  | offered e => subst e; exact .inl ⟨_, .readHeader rfl hne hh⟩
  | accepted e => subst e; exact .inl ⟨_, .writeAck rfl⟩
  | moving hm => exact moving_progress hn hm

def SenderPc.rank (j : Job) : SenderPc → ℕ
  | .header => j.header.length + 4
  | .ack => 3
  | .loop => 2
  | .lastRead => 1
  | .closed => 0
  | .failed => 0

def ClientPc.rank : ClientPc → ℕ
  | .header => 3
  | .ack => 2
  | .loop => 1
  | .closed => 0
  | .failed => 0

/-- A byte of the file takes at most one read on each side. -/
def World.measure (j : Job) (w : World) : ℕ :=
  2 * w.file.length + w.toClient.length + (if w.eof then 0 else 1) + w.sender.rank j +
    w.client.rank

theorem measure_step (h : Step j w w') : w'.measure j < w.measure j := by
  cases h with
  | writeHeader h => simp [World.measure, h, SenderPc.rank]; omega
  | readAck h _ =>
    simp only [World.measure, h]
    split_ifs <;> simp [SenderPc.rank]
  | ackEof h _ _ => simp [World.measure, h, SenderPc.rank]
  | fread chunk rest eof h heof hfile hne _ _ =>
    have hpos := List.length_pos_iff.2 hne
    simp only [World.measure, heof, hfile, List.length_append, Bool.false_eq_true, if_false]
    split_ifs <;> omega
  | freadEof _ heof _ => simp [World.measure, heof]
  | leaveLoop h _ => simp [World.measure, h, SenderPc.rank]
  | lastData h _ => simp [World.measure, h, SenderPc.rank]
  | lastEof h _ _ => simp [World.measure, h, SenderPc.rank]
  | readHeader h _ _ =>
    simp only [World.measure, h]
    split_ifs <;> simp [ClientPc.rank] <;> omega
  | headerTooLong h _ => simp [World.measure, h, ClientPc.rank]
  | headerEof h _ _ => simp [World.measure, h, ClientPc.rank]
  | writeAck h => simp [World.measure, h, ClientPc.rank]
  | readData chunk rest _ _ hto hne _ =>
    have hpos := List.length_pos_iff.2 hne
    simp only [World.measure, hto, List.length_append]
    omega
  | dataEof h _ _ _ => simp [World.measure, h, ClientPc.rank]
  | finish h _ => simp [World.measure, h, ClientPc.rank]

end Steps

theorem inv_not_failed {j : Job} {w : World} (hi : Inv j w) :
    w.sender ≠ .failed ∧ w.client ≠ .failed := by
  cases hi with
  | idle e => subst e; exact ⟨by simp [World.init], by simp [World.init]⟩
  | offered e => subst e; exact ⟨by simp, by simp [World.init]⟩
  | accepted e => subst e; exact ⟨by simp, by simp⟩
  | moving hm =>
    constructor
    · rcases hm.reply with ⟨h, -⟩ | ⟨h | h | h, -⟩ <;> rw [h] <;> decide
    · rcases hm.client with h | h <;> rw [h] <;> decide

theorem inv_closed {j : Job} {w : World} (hn : j.content.length < 2 ^ 31) (hi : Inv j w)
    (hc : w.client = .closed) :
    w.out = j.content ∧ w.cnt = w.hdr.fsize ∧ w.hdr.fsize.toNat = j.content.length ∧
      w.clientWarned = false := by
  cases hi with
  | idle e => subst e; cases hc
  | offered e => subst e; cases hc
  | accepted e => subst e; cases hc
  | moving hm =>
    obtain ⟨hout, hwarn⟩ := hm.finished hc
    refine ⟨hout, ?_, ?_, hwarn⟩
    · rw [hm.cnt, hm.hdr, hout]
      rfl
    · rw [hm.hdr, Job.announced, BitVec.toNat_ofNat, Nat.mod_eq_of_lt (by omega)]

/-- Every interleaving of the two sides is finite and ends only with both sides through; the
client leaves its loop with the whole file written and the announced size reached. -/
theorem transfer_complete (j : Job) (hn : j.content.length < 2 ^ 31)
    (hh : j.header.length < buflen) :
    (∀ w, Relation.ReflTransGen (Step j) (.init j) w →
      w.sender ≠ .failed ∧ w.client ≠ .failed ∧
      (w.client = .closed → w.out = j.content ∧ w.cnt = w.hdr.fsize ∧
        w.hdr.fsize.toNat = j.content.length ∧ w.clientWarned = false) ∧
      ((∃ w', Step j w w') ∨ (w.sender = .closed ∧ w.client = .closed))) ∧
    ∀ ws, List.IsChain (Step j) (.init j :: ws) →
      ws.length ≤ 2 * j.content.length + j.header.length + 8 := by
  constructor
  · intro w hr
    have hi : Inv j w :=
      Runs.reachable_inv (Inv j) (fun _ _ hi hs => inv_step hn hh hi hs) (.idle rfl) hr
    exact ⟨(inv_not_failed hi).1, (inv_not_failed hi).2, inv_closed hn hi, progress hn hh hi⟩
  · intro ws hc
    have hinit : (World.init j).measure j = 2 * j.content.length + j.header.length + 8 := by
      simp only [World.measure, World.init, SenderPc.rank, ClientPc.rank, List.length_nil,
        Bool.false_eq_true, if_false]
      omega
    rw [← hinit]
    exact Runs.chain_length_le (r := Step j) (World.measure j) (fun _ _ hs => measure_step hs) ws _ hc

/-- An empty file, and one of five bytes. -/
def emptyJob : Job := ⟨ascii "empty", [], true, 0x3A5C0000⟩
def shortJob : Job := ⟨ascii "Data", [1, 0, 2, 0, 3], false, 0x3A5C0000⟩

theorem transfer_complete_short :
    (∀ w, Relation.ReflTransGen (Step emptyJob) (.init emptyJob) w → w.client = .closed →
      w.out = []) ∧
    ∀ w, Relation.ReflTransGen (Step shortJob) (.init shortJob) w → w.client = .closed →
      w.out = [1, 0, 2, 0, 3] ∧ w.hdr.fsize.toNat = 5 :=
  ⟨fun w hr hc => ((transfer_complete emptyJob (by decide) (by decide)).1 w hr).2.2.1 hc |>.1,
    fun w hr hc =>
      let h := ((transfer_complete shortJob (by decide) (by decide)).1 w hr).2.2.1 hc
      ⟨h.1, h.2.2.1⟩⟩

end Psion
