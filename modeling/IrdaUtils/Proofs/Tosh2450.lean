import IrdaUtils.Lib.Masks
import IrdaUtils.Spec.Tosh2450

/-! What `tosh2450-smcinit` leaves behind. Unlike its sibling for the 1800 it sets the mode of
UART2; on a chip that it does not know it forgets the key that ends the configuration. The
PCI library is taken for one that reads and writes the registers of the hub. -/

namespace Tosh2450
open PortIo ToshSmcinit Masks

/-! ### The hub -/

/-- A word, with the low byte in front. -/
def word (regs : Regs) (reg : UInt8) : UInt16 := .ofNat ((regs reg).toNat + 256 * (regs (reg + 1)).toNat)

def setWord (regs : Regs) (reg : UInt8) (value : UInt16) : Regs :=
  Function.update (Function.update regs reg (.ofNat (value.toNat % 256))) (reg + 1)
    (.ofNat (value.toNat / 256))

/-- The library reads and writes the configuration registers that a hub has. -/
structure LibPci.Lawful {η : Type} (pci : LibPci η) (regs : η → Regs) : Prop where
  readWord : ∀ dev reg, pci.pciReadWord dev reg = word (regs dev) reg
  writeByte : ∀ dev reg value,
    regs (pci.pciWriteByte dev reg value) = Function.update (regs dev) reg value
  writeWord : ∀ dev reg value, regs (pci.pciWriteWord dev reg value) = setWord (regs dev) reg value

variable {η : Type} {pci : LibPci η} {hubRegs : η → Regs}

/-- The decoding as it is meant, for a serial port at 0x3f8, the FIR registers at 0x130 and the
DMA channel 1. -/
structure Decoded (old new : Regs) : Prop where
  com : new comDec = 0x10
  enable : word new lpcEn = word old lpcEn &&& 0xfffd ||| 0x0001
  dma : word new pciDmaC = word old pciDmaC ||| 0xc00c
  gen2 : word new gen2Dec = 0x131
  others : ∀ r, r ∉ [comDec, lpcEn, lpcEn + 1, pciDmaC, pciDmaC + 1, gen2Dec, gen2Dec + 1] → new r = old r

theorem word_setWord (regs : Regs) (reg : UInt8) (value : UInt16) :
    word (setWord regs reg value) reg = value := by
  have hne : reg ≠ reg + 1 := by simp
  have hv := value.toNat_lt
  apply UInt16.toNat_inj.1
  rw [word, setWord, Function.update_of_ne hne, Function.update_self, Function.update_self,
    UInt16.toNat_ofNat', UInt8.toNat_ofNat', UInt8.toNat_ofNat']
  omega

theorem word_congr {regs regs' : Regs} {reg : UInt8} (h : regs reg = regs' reg)
    (h' : regs (reg + 1) = regs' (reg + 1)) : word regs reg = word regs' reg := by
  rw [word, word, h, h']

/-- The registers of a hub that is known. -/
def decodedRegs (regs : Regs) : Regs :=
  let r := Function.update regs comDec 0x10
  let r := setWord r lpcEn (word r lpcEn &&& 0xfffd ||| 0x0001)
  let r := setWord r pciDmaC (word r pciDmaC ||| 0xc00c)
  setWord r gen2Dec 0x131

def Known (regs : Regs) : Prop := word regs vid = intelVid ∧ word regs did = i82801DBLpcDid

instance (regs : Regs) : Decidable (Known regs) := inferInstanceAs (Decidable (_ ∧ _))

def decodedHub (pci : LibPci η) (dev : η) : η :=
  let dev := pci.pciWriteByte dev comDec 0x10
  let dev := pci.pciWriteWord dev lpcEn (pci.pciReadWord dev lpcEn &&& 0xfffd ||| 0x0001)
  let dev := pci.pciWriteWord dev pciDmaC (pci.pciReadWord dev pciDmaC ||| 0xc00c)
  pci.pciWriteWord dev gen2Dec 0x131

theorem LibPci.Lawful.decodedHub (hp : pci.Lawful hubRegs) (dev : η) :
    hubRegs (Tosh2450.decodedHub pci dev) = decodedRegs (hubRegs dev) := by
  simp only [Tosh2450.decodedHub, decodedRegs, hp.writeWord, hp.writeByte, hp.readWord]

theorem LibPci.Lawful.setpci (hp : pci.Lawful hubRegs) (dev : η) :
    setpci pci dev =
      if Known (hubRegs dev) then some (Tosh2450.decodedHub pci dev) else none := by
  unfold Tosh2450.setpci
  rw [hp.readWord, hp.readWord]
  by_cases hv : word (hubRegs dev) vid = intelVid
  · by_cases hd : word (hubRegs dev) did = i82801DBLpcDid
    · rw [if_neg (not_not.2 hv), if_neg (not_not.2 hd), if_pos ⟨hv, hd⟩]
      rfl
    · rw [if_neg (not_not.2 hv), if_pos hd, if_neg fun h => hd h.2]
  · rw [if_pos hv, if_neg fun h => hv h.1]

theorem decoded (regs : Regs) : Decoded regs (decodedRegs regs) := by
  set r1 := Function.update regs comDec 0x10 with hr1
  set r2 := setWord r1 lpcEn (word r1 lpcEn &&& 0xfffd ||| 0x0001) with hr2
  have h1 : word r1 lpcEn = word regs lpcEn := word_congr rfl rfl
  have h2 : word r2 pciDmaC = word regs pciDmaC := word_congr rfl rfl
  refine ⟨rfl, ?_, ?_, ?_, ?_⟩
  · rw [← h1]
    exact (word_congr rfl rfl).trans (word_setWord r1 lpcEn _)
  · rw [← h2]
    exact (word_congr rfl rfl).trans (word_setWord r2 pciDmaC _)
  · exact word_setWord _ _ _
  · intro r h
    simp only [List.mem_cons, List.not_mem_nil, or_false, not_or] at h
    obtain ⟨h1, h2, h3, h4, h5, h6, h7⟩ := h
    simp only [decodedRegs, setWord]
    rw [Function.update_of_ne h7, Function.update_of_ne h6, Function.update_of_ne h5,
      Function.update_of_ne h4, Function.update_of_ne h3, Function.update_of_ne h2,
      Function.update_of_ne h1]

/-! ### The chip -/

/-- The chip as it is meant: UART1 off, UART2 at 0x3f8 with interrupt 7 in the IrDA mode and at
high speed, the FIR registers at 0x130 with DMA channel 1. -/
structure Configured (old new : UInt8 → UInt8) : Prop where
  uart1 : new 0x24 = 0
  sir : (new 0x25).toNat * 4 = 0x3f8
  irq : new 0x28 = 7
  fir : (new 0x2b).toNat * 8 = 0x130
  firDma : new 0x2c = 1
  uart2Mode : new 0x0c &&& 0x38 = 0x08
  highSpeed : new 0x0c &&& 0x80 = 0x80
  uartModeRest : new 0x0c &&& 0x47 = old 0x0c &&& 0x47
  autoPowerDown : new 0x07 = old 0x07 ||| 0x20
  irMux : new 0x0a = old 0x0a ||| 0x40
  power : new 0x02 = 0x80
  valid : new 0x00 = old 0x00 ||| 0x80
  others : ∀ r, r ∉ [0x24, 0x25, 0x28, 0x2b, 0x2c, 0x0c, 0x07, 0x0a, 0x02, 0x00] → new r = old r

def configuredRegs (regs : UInt8 → UInt8) : UInt8 → UInt8 :=
  let r := Function.update regs 0x24 0x00
  let r := Function.update r 0x25 0xfe
  let r := Function.update r 0x28 (r 0x28 &&& 0x00 ||| 0x07)
  let r := Function.update r 0x2b 0x26
  let r := Function.update r 0x2c 0x01
  let r := Function.update r 0x0c (r 0x0c &&& 0xc7 ||| 0x88)
  let r := Function.update r 0x07 (r 0x07 ||| 0x20)
  let r := Function.update r 0x0a (r 0x0a ||| 0x40)
  let r := Function.update r 0x02 0x80
  Function.update r 0x00 (r 0x00 ||| 0x80)

/-- The chip behind the second half of `main`. -/
def leftChip (c : IndexChip) : IndexChip :=
  if c.regs 0x0d = 0x5a then ⟨false, 0x00, configuredRegs c.regs⟩ else ⟨true, 0x0d, c.regs⟩

theorem setsmc_run (c : IndexChip) :
    (lpc47N227 smcBase).device.Run setsmc c (if c.regs 0x0d = 0x5a then 0 else 1) (leftChip c) := by
  have hreg : ∀ r : UInt8, r ≠ 0xaa → r ≠ (lpc47N227 smcBase).exitKey := fun r h => h
  have hkeys : cfgAccessKey ≠ cfgExitKey := by decide
  obtain ⟨i, henter⟩ := IndexPort.run_enter (p := lpc47N227 smcBase) c hkeys
  refine .bind henter <| .bind (IndexPort.run_select (hreg 0x0d (by decide)) i c.regs) <|
    .bind (IndexPort.run_read 0x0d c.regs) ?_
  unfold leftChip
  split_ifs with hid
  · exact .bind (IndexPort.run_writeReg (hreg 0x24 (by decide)) _ _ _) <|
      .bind (IndexPort.run_writeReg (hreg 0x25 (by decide)) _ _ _) <|
      .bind (IndexPort.run_modifyReg (hreg 0x28 (by decide)) _ _ _) <|
      .bind (IndexPort.run_writeReg (hreg 0x2b (by decide)) _ _ _) <|
      .bind (IndexPort.run_writeReg (hreg 0x2c (by decide)) _ _ _) <|
      .bind (IndexPort.run_modifyReg (hreg 0x0c (by decide)) _ _ _) <|
      .bind (IndexPort.run_modifyReg (hreg 0x07 (by decide)) _ _ _) <|
      .bind (IndexPort.run_modifyReg (hreg 0x0a (by decide)) _ _ _) <|
      .bind (IndexPort.run_modifyReg (hreg 0x02 (by decide)) _ _ _) <|
      .bind (IndexPort.run_modifyReg (hreg 0x00 (by decide)) _ _ _) <|
      .bind (IndexPort.run_exit _ _) (.pure 0 _)
  · exact .pure 1 _

theorem configuredRegs_other {r : UInt8}
    (h : r ∉ [0x24, 0x25, 0x28, 0x2b, 0x2c, 0x0c, 0x07, 0x0a, 0x02, 0x00]) (regs : UInt8 → UInt8) :
    configuredRegs regs r = regs r := by
  simp only [List.mem_cons, List.not_mem_nil, or_false, not_or] at h
  obtain ⟨h24, h25, h28, h2b, h2c, h0c, h07, h0a, h02, h00⟩ := h
  simp only [configuredRegs]
  rw [Function.update_of_ne h00, Function.update_of_ne h02, Function.update_of_ne h0a,
    Function.update_of_ne h07, Function.update_of_ne h0c, Function.update_of_ne h2c,
    Function.update_of_ne h2b, Function.update_of_ne h28, Function.update_of_ne h25,
    Function.update_of_ne h24]

theorem configured (regs : UInt8 → UInt8) : Configured regs (configuredRegs regs) := by
  have hmode : configuredRegs regs 0x0c = regs 0x0c &&& 0xc7 ||| 0x88 := rfl
  have hmask : ∀ k : UInt8, (regs 0x0c &&& 0xc7 ||| 0x88) &&& k =
      regs 0x0c &&& (0xc7 &&& k) ||| (0x88 &&& k) := fun k => by
    rw [mask_or, UInt8.and_assoc]
  refine ⟨rfl, rfl, ?_, rfl, rfl, ?_, ?_, ?_, rfl, rfl, rfl, rfl, fun r hr => configuredRegs_other hr _⟩
  · change regs 0x28 &&& 0x00 ||| 0x07 = 7
    rw [UInt8.and_zero, UInt8.zero_or]
  · rw [hmode, hmask, show (0xc7 : UInt8) &&& 0x38 = 0 by rfl, UInt8.and_zero, UInt8.zero_or]
    rfl
  · rw [hmode, hmask, show (0xc7 : UInt8) &&& 0x80 = 0x80 by rfl]
    have h := mask_or_self (regs 0x0c) 0x80
    rwa [mask_or, UInt8.and_self] at h
  · rw [hmode, hmask, show (0x88 : UInt8) &&& 0x47 = 0 by rfl, UInt8.or_zero]
    rfl

/-! ### The program -/

theorem main_run (hp : pci.Lawful hubRegs) (dev : η) (c : IndexChip) :
    let d := (lpc47N227 smcBase).device
    let r := main pci dev (d.hardware c) []
    if Known (hubRegs dev) then r.1 = (if c.regs 0x0d = 0x5a then 0 else 1, decodedHub pci dev) ∧
      d.state c r.2 = leftChip c
    else r.1 = (1, dev) ∧ d.state c r.2 = c := by
  unfold main
  rw [hp.setpci]
  by_cases h : Known (hubRegs dev)
  · simp only [if_pos h]
    exact (setsmc_run c).bind (f := fun status => pure (status, decodedHub pci dev)) (.pure _ _) c [] rfl
  · simp only [if_neg h]
    exact ⟨rfl, rfl⟩

/-- The program succeeds exactly on the hub and the chip that it knows, which it leaves decoded,
configured and closed. It does not touch a hub that it does not know, nor the chip behind it;
an unknown chip keeps its registers, but is left in its configuration mode. -/
theorem main_outcome (hp : pci.Lawful hubRegs) (dev : η) (c : IndexChip) :
    let d := (lpc47N227 smcBase).device
    let r := main pci dev (d.hardware c) []
    (r.1.1 = 0 ↔ Known (hubRegs dev) ∧ c.regs 0x0d = 0x5a) ∧
      (r.1.1 = 0 → (d.state c r.2).config = false ∧ Configured c.regs (d.state c r.2).regs ∧
        Decoded (hubRegs dev) (hubRegs r.1.2)) ∧
      (r.1.1 ≠ 0 → if Known (hubRegs dev) then (d.state c r.2).config = true ∧
          (d.state c r.2).regs = c.regs ∧ Decoded (hubRegs dev) (hubRegs r.1.2)
        else d.state c r.2 = c ∧ r.1.2 = dev) := by
  intro d r
  have hrun := main_run hp dev c
  by_cases hk : Known (hubRegs dev)
  · obtain ⟨hr, hstate⟩ : r.1 = (if c.regs 0x0d = 0x5a then 0 else 1, decodedHub pci dev) ∧
        d.state c r.2 = leftChip c := by simpa only [if_pos hk] using hrun
    have hdec : Decoded (hubRegs dev) (hubRegs (decodedHub pci dev)) := by
      rw [hp.decodedHub]
      exact decoded (hubRegs dev)
    rw [if_pos hk, hr, hstate]
    by_cases hid : c.regs 0x0d = 0x5a
    · rw [leftChip, if_pos hid, if_pos hid]
      exact ⟨iff_of_true rfl ⟨hk, hid⟩, fun _ => ⟨rfl, configured c.regs, hdec⟩, fun h => absurd rfl h⟩
    · rw [leftChip, if_neg hid, if_neg hid]
      exact ⟨iff_of_false one_ne_zero fun h => hid h.2, fun h => absurd h one_ne_zero,
        fun _ => ⟨rfl, rfl, hdec⟩⟩
  · obtain ⟨hr, hstate⟩ : r.1 = (1, dev) ∧ d.state c r.2 = c := by
      simpa only [if_neg hk] using hrun
    rw [if_neg hk, hr, hstate]
    exact ⟨iff_of_false one_ne_zero fun h => hk h.1, fun h => absurd h one_ne_zero, fun _ => ⟨rfl, rfl⟩⟩

/-- The library on a hub that is nothing but its registers. -/
def registers : LibPci Regs := ⟨word, Function.update, setWord⟩

theorem registers_lawful : registers.Lawful id := ⟨fun _ _ => rfl, fun _ _ _ => rfl, fun _ _ _ => rfl⟩

/-- The hub that the program knows. -/
def knownHub : Regs := fun r => if r = 0 then 0x86 else if r = 1 then 0x80 else if r = 2 then 0xc0
  else if r = 3 then 0x24 else 0

/-- A chip that is there, and one that is not. -/
theorem main_outcome_known :
    (main registers knownHub ((lpc47N227 smcBase).device.hardware ⟨false, 0, fun _ => 0x5a⟩) []).1.1 = 0 ∧
      (main registers knownHub ((lpc47N227 smcBase).device.hardware ⟨false, 0, fun _ => 0xff⟩) []).1.1 ≠ 0 := by
  have hout := fun v => (main_outcome registers_lawful knownHub ⟨false, 0, fun _ => v⟩).1
  exact ⟨(hout 0x5a).2 ⟨by decide, rfl⟩, fun h => absurd ((hout 0xff).1 h).2 (by decide)⟩

/-! ### A second run -/

theorem setWord_same {regs : Regs} {reg : UInt8} {value : UInt16} (h : word regs reg = value) :
    setWord regs reg value = regs := by
  have hlo := (regs reg).toNat_lt
  have hhi := (regs (reg + 1)).toNat_lt
  have hv : value.toNat = (regs reg).toNat + 256 * (regs (reg + 1)).toNat := by
    rw [← h, word, UInt16.toNat_ofNat']
    omega
  have h1 : UInt8.ofNat (value.toNat % 256) = regs reg := by
    apply UInt8.toNat_inj.1
    rw [UInt8.toNat_ofNat', hv]
    omega
  have h2 : UInt8.ofNat (value.toNat / 256) = regs (reg + 1) := by
    apply UInt8.toNat_inj.1
    rw [UInt8.toNat_ofNat', hv]
    omega
  rw [setWord, h1, h2, Function.update_eq_self, Function.update_eq_self]

theorem decodedRegs_same {regs : Regs} (hcom : Function.update regs comDec 0x10 = regs)
    (henable : word regs lpcEn = word regs lpcEn &&& 0xfffd ||| 0x0001)
    (hdma : word regs pciDmaC = word regs pciDmaC ||| 0xc00c)
    (hgen2 : word regs gen2Dec = 0x131) : decodedRegs regs = regs := by
  simp only [decodedRegs]
  rw [hcom, setWord_same henable, setWord_same hdma, setWord_same hgen2]

theorem decodedRegs_twice (regs : Regs) : decodedRegs (decodedRegs regs) = decodedRegs regs := by
  have h := decoded regs
  have hcom : Function.update (decodedRegs regs) comDec 0x10 = decodedRegs regs := by
    rw [← h.com, Function.update_eq_self]
  have henable : word (decodedRegs regs) lpcEn =
      word (decodedRegs regs) lpcEn &&& 0xfffd ||| 0x0001 := by
    rw [h.enable]
    apply UInt16.toBitVec_inj.1
    simp only [UInt16.toBitVec_or, UInt16.toBitVec_and, BitVec.and_or_distrib_right, BitVec.and_assoc,
      BitVec.or_assoc]
    rfl
  have hdma : word (decodedRegs regs) pciDmaC = word (decodedRegs regs) pciDmaC ||| 0xc00c := by
    rw [h.dma, UInt16.or_assoc, UInt16.or_self]
  exact decodedRegs_same hcom henable hdma h.gen2

theorem configuredRegs_twice (regs : UInt8 → UInt8) :
    configuredRegs (configuredRegs regs) = configuredRegs regs := by
  have h := configured regs
  have h' := configured (configuredRegs regs)
  have hor : ∀ r m : UInt8, configuredRegs regs r = regs r ||| m →
      configuredRegs regs r ||| m = configuredRegs regs r := by
    intro r m e
    rw [e, UInt8.or_assoc, UInt8.or_self]
  have hsir : ∀ regs, configuredRegs regs 0x25 = 0xfe := fun _ => rfl
  have hfir : ∀ regs, configuredRegs regs 0x2b = 0x26 := fun _ => rfl
  have hmode : ∀ regs, configuredRegs regs 0x0c = regs 0x0c &&& 0xc7 ||| 0x88 := fun _ => rfl
  funext r
  by_cases hr : r ∈ [0x24, 0x25, 0x28, 0x2b, 0x2c, 0x0c, 0x07, 0x0a, 0x02, 0x00]
  · simp only [List.mem_cons, List.not_mem_nil, or_false] at hr
    rcases hr with rfl | rfl | rfl | rfl | rfl | rfl | rfl | rfl | rfl | rfl
    · exact h'.uart1.trans h.uart1.symm
    · exact (hsir _).trans (hsir _).symm
    · exact h'.irq.trans h.irq.symm
    · exact (hfir _).trans (hfir _).symm
    · exact h'.firDma.trans h.firDma.symm
    · rw [hmode, hmode, mask_or, UInt8.and_assoc, UInt8.or_assoc]
      rfl
    · exact h'.autoPowerDown.trans (hor _ _ h.autoPowerDown)
    · exact h'.irMux.trans (hor _ _ h.irMux)
    · exact h'.power.trans h.power.symm
    · exact h'.valid.trans (hor _ _ h.valid)
  · exact configuredRegs_other hr _

theorem leftChip_twice (c : IndexChip) : leftChip (leftChip c) = leftChip c := by
  by_cases hid : c.regs 0x0d = 0x5a
  · have hid' : (leftChip c).regs 0x0d = 0x5a := by
      rw [leftChip, if_pos hid]
      exact (configuredRegs_other (r := 0x0d) (by decide) c.regs).trans hid
    rw [leftChip, if_pos hid', leftChip, if_pos hid, configuredRegs_twice]
  · have hid' : (leftChip c).regs 0x0d ≠ 0x5a := by
      rwa [leftChip, if_neg hid]
    rw [leftChip, if_neg hid', leftChip, if_neg hid]

/-- A second run answers as the first one and changes no register any more, also where the first
one has failed. -/
theorem main_twice (hp : pci.Lawful hubRegs) (dev : η) (c : IndexChip) :
    let d := (lpc47N227 smcBase).device
    let r := main pci dev (d.hardware c) []
    let r' := main pci r.1.2 (d.hardware (d.state c r.2)) []
    r'.1.1 = r.1.1 ∧ hubRegs r'.1.2 = hubRegs r.1.2 ∧
      d.state (d.state c r.2) r'.2 = d.state c r.2 := by
  intro d r
  have hrun := main_run hp dev c
  by_cases hk : Known (hubRegs dev)
  · obtain ⟨hr, hstate⟩ : r.1 = (if c.regs 0x0d = 0x5a then 0 else 1, decodedHub pci dev) ∧
        d.state c r.2 = leftChip c := by simpa only [if_pos hk] using hrun
    have hregs := hp.decodedHub dev
    have hk' : Known (hubRegs (decodedHub pci dev)) := by
      rw [hregs]
      exact hk
    have hid : (leftChip c).regs 0x0d = c.regs 0x0d := by
      unfold leftChip
      split_ifs
      · exact configuredRegs_other (r := 0x0d) (by decide) c.regs
      · rfl
    have hrun' := main_run hp (decodedHub pci dev) (leftChip c)
    simp only [if_pos hk', hid, leftChip_twice] at hrun'
    rw [hr, hstate]
    simp only
    rw [hrun'.1]
    refine ⟨rfl, ?_, hrun'.2⟩
    rw [hp.decodedHub, hregs, decodedRegs_twice]
  · obtain ⟨hr, hstate⟩ : r.1 = (1, dev) ∧ d.state c r.2 = c := by
      simpa only [if_neg hk] using hrun
    have hrun' : r.1 = (1, dev) ∧ d.state c r.2 = c := ⟨hr, hstate⟩
    rw [hr, hstate]
    simp only
    change r.1.1 = 1 ∧ hubRegs r.1.2 = hubRegs dev ∧ d.state c r.2 = c
    rw [hr]
    exact ⟨rfl, rfl, hstate⟩

theorem main_twice_unknown :
    let d := (lpc47N227 smcBase).device
    let r := main registers knownHub (d.hardware ⟨false, 0, fun _ => 0xff⟩) []
    let r' := main registers r.1.2 (d.hardware (d.state ⟨false, 0, fun _ => 0xff⟩ r.2)) []
    r'.1.1 = r.1.1 ∧ r'.1.2 = r.1.2 ∧
      d.state (d.state ⟨false, 0, fun _ => 0xff⟩ r.2) r'.2 = d.state ⟨false, 0, fun _ => 0xff⟩ r.2 :=
  main_twice registers_lawful knownHub ⟨false, 0, fun _ => 0xff⟩

end Tosh2450
