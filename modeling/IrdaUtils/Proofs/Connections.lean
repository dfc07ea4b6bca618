import IrdaUtils.Lib.Runs
import IrdaUtils.Sanity.Ledger

/-! Connection tracking on one link. The table follows the ledger in every run in which
no frame meets a slot that does not stand for its connection. A search takes closed slots
for open ones, so in other runs it does not: see `closed_slot_found`. -/

namespace Irdadump
open Runs

/-- Connection tracking on one link: when every step of the run is tidy, every
`CONNECT_RSP` and every data frame is decoded with the protocols of the connection that
is open for its selectors, and as an unknown connection when there is none. -/
theorem tidy_run_follows_ledger (cfg : Config) (c : UInt8) (fs : List Frame)
    (hlink : ∀ f ∈ fs, f.caddr = c)
    (htidy : Along (decode cfg) (fun d f => Tidy d.tracker (f.pdu cfg)) Decoder.init fs) :
    FollowsLedger cfg fs := by
  intro pre f post e
  subst e
  have halong : Along (decode cfg) (fun d f => Tidy d.tracker (f.pdu cfg) ∧ f.caddr = c)
      Decoder.init (pre ++ f :: post) :=
    htidy.imp fun _ g hg ht => ⟨ht, hlink g hg⟩
  obtain ⟨hpre, ht, hf⟩ := halong.split
  have hstep : ∀ (d : Decoder) (x : Tracker × Ledger) (g : Frame),
      x.1 = d.tracker ∧ OnLink c d.tracker x.2 → Tidy d.tracker (g.pdu cfg) ∧ g.caddr = c →
      (ledgerStep cfg x g).1 = (decode cfg d g).tracker ∧
        OnLink c (decode cfg d g).tracker (ledgerStep cfg x g).2 := by
    rintro d ⟨t, L⟩ g ⟨rfl, hinv⟩ ⟨ht, hg⟩
    rw [tracker_decode]
    exact ⟨rfl, onLink_step hinv hg ht⟩
  have hinv := simulation _ hstep pre Decoder.init (Decoder.init.tracker, Ledger.empty)
    ⟨rfl, onLink_init c⟩ hpre
  have hp := tracks_parseFrame cfg (pre.foldl (decode cfg) Decoder.init) f
  exact decoded_tracked hinv.2.toAgrees ht (hinv.2.apart hf) hp.2.1 hp.2.2

/-- A query for OBEX over TinyTP and its answer, a connect command for the selector in it, the
response, data and the disconnect. -/
def tidyRun : List Frame :=
  [.ofBytes 1 [0x03, 0x10, 0x00, 0x10, 0x84, 4, 0x4f, 0x42, 0x45, 0x58, 6, 0x54, 0x69, 0x6e, 0x79, 0x54,
      0x50],
    .ofBytes 0 [0x02, 0x10, 0x10, 0x00, 0x84, 0x00, 0, 1, 0, 1, 1, 0, 0, 0, 5],
    .ofBytes 1 [0x03, 0x10, 0x85, 0x11, 0x01, 0x00], .ofBytes 0 [0x02, 0x10, 0x91, 0x05, 0x81, 0x00],
    .ofBytes 1 [0x03, 0x10, 0x05, 0x11, 0x00], .ofBytes 1 [0x03, 0x10, 0x85, 0x11, 0x02, 0x01]]

theorem tidy_run_follows_ledger_tidyRun : FollowsLedger {} tidyRun := by
  refine tidy_run_follows_ledger {} 0x02 tidyRun (by decide) ?_
  exact (along_image (fun t f => Tidy t (f.pdu {})) Decoder.tracker (tracker_decode {}) tidyRun
    Decoder.init).2 (by decide)

/-- TinyTP is asked for and found at selector 5. Two connections to it are opened and
closed again, and the second one is opened once more: now in the slot of the first, while
the cache has the old one. -/
def reusedRun : List Frame :=
  [.ofBytes 1 [0x03, 0x10, 0x00, 0x10, 0x84, 0, 6, 0x54, 0x69, 0x6e, 0x79, 0x54, 0x50],
    .ofBytes 0 [0x02, 0x10, 0x10, 0x00, 0x84, 0x00, 0, 1, 0, 1, 1, 0, 0, 0, 5],
    .ofBytes 1 [0x03, 0x10, 0x85, 0x12, 0x01, 0x00], .ofBytes 1 [0x03, 0x10, 0x85, 0x11, 0x01, 0x00],
    .ofBytes 1 [0x03, 0x10, 0x85, 0x12, 0x02, 0x01], .ofBytes 1 [0x03, 0x10, 0x85, 0x11, 0x02, 0x01],
    .ofBytes 1 [0x03, 0x10, 0x85, 0x11, 0x01, 0x00]]

def reusedData : Frame := .ofBytes 1 [0x03, 0x10, 0x05, 0x11, 0x00]

theorem reusedRun_atMost (pre post : List Frame) (e : reusedRun ++ [reusedData] = pre ++ post) :
    (openAfter {} pre).AtMost maxConnections := by
  have hall : ∀ f ∈ reusedRun ++ [reusedData], ∀ c s d t,
      f.pdu {} = .lm ⟨c, t, s, d⟩ .connectCmd →
        (c, LmHead.pair ⟨c, t, s, d⟩) ∈
          ({(0x02, 0x11, 0x05), (0x02, 0x12, 0x05)} : Finset (UInt8 × UInt8 × UInt8)) := by
    intro f hf c s d t hc
    fin_cases hf <;> cases hc <;> decide
  refine ⟨{(0x02, 0x11, 0x05), (0x02, 0x12, 0x05)}, by decide, openAfter_mem _ pre _ ?_⟩
  rintro f hf ⟨c, t, s, d⟩ hc
  exact hall f (e ▸ List.mem_append_left _ hf) c s d t hc

/-- A closed slot is still found, here through the cache, so that the data of the open
connection are not decoded. -/
theorem closed_slot_found :
    ¬ ∀ (cfg : Config) (c : UInt8) (fs : List Frame), (∀ f ∈ fs, f.caddr = c) →
      (∀ pre post, fs = pre ++ post → (openAfter cfg pre).AtMost maxConnections) →
      FollowsLedger cfg fs := by
  intro h
  have hf := h {} 0x02 (reusedRun ++ [reusedData]) (by decide) reusedRun_atMost
    reusedRun reusedData [] rfl
  have hnames : (parseFrame {} (reusedRun.foldl (decode {}) Decoder.init) reusedData).names = [] := by
    rw [(tracks_parseFrame _ _ _).2.2, tracker_run]
    decide
  have hopen : openAfter {} reusedRun 0x02 (0x11, 0x05) = some ⟨true, false, false, false⟩ := by
    decide
  have hpdu : reusedData.pdu {} = .lm ⟨0x02, 1, 0x11, 0x05⟩ (.data .none) := by decide
  have hentry : (openAfter {} reusedRun).entry (reusedData.pdu {}) =
      some ⟨true, false, false, false⟩ := by
    rw [hpdu]
    exact hopen
  rw [hentry, hpdu] at hf
  obtain ⟨-, hcalls⟩ := hf
  rw [hnames] at hcalls
  cases hcalls

end Irdadump
