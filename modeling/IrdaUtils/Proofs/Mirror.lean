import IrdaUtils.Sanity.SideLap
import IrdaUtils.Sanity.Table

/-! Both ends of a link are decoded alike. A capture with every direction flag flipped
is what the other end would have captured: its run is the mirror image of the first one
after every frame, and every frame goes through the same parsers with the same contents. -/

namespace Irdadump

/-- The same frame with the other direction. -/
structure Frame.Flipped (f f' : Frame) : Prop where
  type : f'.type ≠ 0 ↔ f.type = 0
  buf : f'.buf = f.buf
  env : f'.env = f.env

/-- The calls of the parsers above LMP, frame by frame. -/
def runCalls (cfg : Config) : Decoder → List Frame → List (List Call)
  | _, [] => []
  | d, f :: fs => (parseFrame cfg d f).calls :: runCalls cfg (decode cfg d f) fs

theorem mirror_init : Decoder.init.mirror = Decoder.init := by
  have hconn : ∀ i, Decoder.init.conn i = LsapState.zero := by
    intro i
    unfold Decoder.init irlapInit Decoder.static
    simp only [Function.update_apply, ite_self]
  have e : (fun i => (Decoder.init.conn i).mirror) = Decoder.init.conn := by
    funext i
    rw [hconn]
    rfl
  unfold Decoder.mirror
  rw [e]
  rfl

theorem mirror_step (cfg : Config) (d : Decoder) {f f' : Frame} (h : f.Flipped f') :
    decode cfg d.mirror f' = (decode cfg d f).mirror ∧
      (parseFrame cfg d.mirror f').calls = (parseFrame cfg d f).calls := by
  have hp : Paired true True False { f.env with cfg := cfg } { f'.env with cfg := cfg } := by
    rw [h.env]
    exact ⟨fun _ ht => ht, fun _ ht => ht, rfl, False.elim⟩
  have hs : Side true True False (f.start d) (f'.start d.mirror) := by
    refine ⟨⟨?_, fun n _ => ?_, rfl, rfl, rfl, False.elim, False.elim⟩, rfl⟩
    · exact congrArg GNetBuf.len h.buf
    · exact congrArg (fun b : GNetBuf => b.mem (b.data + n)) h.buf
  have hr := side_irlapFrame hp h.type hs False.elim (Or.inl trivial)
  exact ⟨hr.dec, hr.calls⟩

theorem mirror_take (cfg : Config) {fs fs' : List Frame} (h : List.Forall₂ Frame.Flipped fs fs') :
    ∀ (n : ℕ) (d : Decoder), (fs'.take n).foldl (decode cfg) d.mirror =
      ((fs.take n).foldl (decode cfg) d).mirror := by
  induction h with
  | nil =>
    intro n d
    simp only [List.take_nil, List.foldl_nil]
  | cons hf _ ih =>
    intro n d
    cases n with
    | zero => rfl
    | succ n =>
      simp only [List.take_succ_cons, List.foldl_cons]
      rw [(mirror_step cfg d hf).1]
      exact ih n _

theorem mirror_calls (cfg : Config) {fs fs' : List Frame} (h : List.Forall₂ Frame.Flipped fs fs') :
    ∀ d : Decoder, runCalls cfg d.mirror fs' = runCalls cfg d fs := by
  induction h with
  | nil =>
    intro d
    rfl
  | cons hf _ ih =>
    intro d
    unfold runCalls
    rw [(mirror_step cfg d hf).1, (mirror_step cfg d hf).2, ih]

/-- Both ends of a link are decoded alike: after every frame the run with the directions
flipped is in the mirror image of the state of the first one, and it has called the same
parsers on the same contents. -/
theorem flipped_run_mirrored (cfg : Config) (fs fs' : List Frame)
    (h : List.Forall₂ Frame.Flipped fs fs') :
    (∀ n, (fs'.take n).foldl (decode cfg) Decoder.init =
        ((fs.take n).foldl (decode cfg) Decoder.init).mirror) ∧
      runCalls cfg Decoder.init fs' = runCalls cfg Decoder.init fs := by
  have ht := mirror_take cfg h
  have hc := mirror_calls cfg h Decoder.init
  rw [mirror_init] at hc
  refine ⟨fun n => ?_, hc⟩
  have := ht n Decoder.init
  rwa [mirror_init] at this

def Frame.flip (f : Frame) : Frame := { f with type := if f.type = 0 then 4 else 0 }

theorem flipped_flip (f : Frame) : f.Flipped f.flip := by
  refine ⟨?_, rfl, rfl⟩
  unfold Frame.flip
  by_cases h : f.type = 0 <;> simp [h]

/-- A connect command for the selector that no query has asked for, and its response. -/
def handshake : List Frame :=
  [.ofBytes 0 [0x03, 0x10, 0x80, 0x11, 0x01, 0x00], .ofBytes 4 [0x02, 0x10, 0x91, 0x00, 0x81, 0x00]]

theorem flipped_run_mirrored_handshake :
    (∀ n, ((handshake.map Frame.flip).take n).foldl (decode {}) Decoder.init =
        ((handshake.take n).foldl (decode {}) Decoder.init).mirror) ∧
      runCalls {} Decoder.init (handshake.map Frame.flip) = runCalls {} Decoder.init handshake :=
  flipped_run_mirrored {} handshake (handshake.map Frame.flip)
    (.cons (flipped_flip _) (.cons (flipped_flip _) .nil))

end Irdadump
