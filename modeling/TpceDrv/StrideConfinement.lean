import TpceDrv.ActiveDescriptors
import TpceDrv.Library.Strided

namespace TpceDrv.StrideConfinement

open Descriptor DmaParams DmaInfo Mapping Device ChannelControl ChannelSteps Requests Driver
open RequestSteps ActiveDescriptors Library Library.Strided

variable {env : InitEnv} {dev dev' : TpceDev} {c : Channel} {req : TpceDmaRequest} {m : TpceDmaMapInfo}

def dmaRange (sg : Scatterlist) : Set ℕ :=
  Set.Ico sg.dmaAddress.toNat (sg.dmaAddress.toNat + sg.dmaLength.toNat)

/-- What the hardware writes for a descriptor with words of `w` bytes -/
def writtenBytes (w : ℕ) (addr : U64) (len : ℕ) (stride : U16) : Set ℕ :=
  positions w stride.toNat addr.toNat (len / w)

/-- The whole descriptor writes into one range. -/
def InOneRange (m : TpceDmaMapInfo) (w : ℕ) (addr : U64) (len : ℕ) (stride : U16) : Prop :=
  ∃ sg ∈ m.sgt.dmaEntries, writtenBytes w addr len stride ⊆ dmaRange sg

/-- Each byte of the descriptor goes to a range. -/
def InRanges (m : TpceDmaMapInfo) (w : ℕ) (addr : U64) (len : ℕ) (stride : U16) : Prop :=
  ∀ b ∈ writtenBytes w addr len stride, ∃ sg ∈ m.sgt.dmaEntries, b ∈ dmaRange sg

/-- From the start of the first word to the end of the last one, if there is a
whole word -/
def SpanFits (m : TpceDmaMapInfo) (w : ℕ) (addr : U64) (len : ℕ) (stride : U16) : Prop :=
  ∃ sg ∈ m.sgt.dmaEntries, len / w = 0 ∨ (sg.dmaAddress.toNat ≤ addr.toNat ∧
    addr.toNat + (len / w - 1) * stride.toNat * w + w ≤ sg.dmaAddress.toNat + sg.dmaLength.toNat)

theorem inOneRange_iff {w : ℕ} (hw : 0 < w) {addr : U64} {len : ℕ} {stride : U16} :
    InOneRange m w addr len stride ↔ SpanFits m w addr len stride :=
  exists_congr fun _ => and_congr_right fun _ => positions_subset_Ico hw

theorem InOneRange.inRanges {w : ℕ} {addr : U64} {len : ℕ} {stride : U16}
    (h : InOneRange m w addr len stride) : InRanges m w addr len stride := by
  obtain ⟨sg, hsg, hsub⟩ := h
  exact fun b hb => ⟨sg, hsg, hsub hb⟩

theorem channelInfo_dataWidth_pos {channel : U8} {ch : TpceDmaChannelInfo}
    (h : channelInfo channel = .ok ch) : 0 < ch.dataWidth.toNat := by
  rcases channelInfo_dataWidth h with hw | hw
  · rw [hw]
    decide
  · rw [hw]
    decide

/-- The active descriptors of an accepted request write into the mapping, each
into one range or each byte into some range, exactly when what the request
asks for does. -/
theorem strides_iff {ret : ℤ} {ch : TpceDmaChannelInfo} (hch : channelInfo req.params.channel = .ok ch)
    (hdir : req.params.direction = tpceDmaFromDevice) (hload : xaLoad dev req.id = some m)
    (hinit : initDmaInfo env dev c req = .ok (ret, dev')) (haccepted : 0 ≤ ret) :
    ((∀ desc ∈ (dev'.dmaInfo c).active, InOneRange m ch.dataWidth.toNat (tpceDescGetWrite desc)
        desc.transferLength.toNat desc.writeStride) ↔
      ForDescriptors env req m (SpanFits m ch.dataWidth.toNat)) ∧
    ((∀ desc ∈ (dev'.dmaInfo c).active, InRanges m ch.dataWidth.toNat (tpceDescGetWrite desc)
        desc.transferLength.toNat desc.writeStride) ↔
      ForDescriptors env req m (InRanges m ch.dataWidth.toNat)) := by
  have hhost : ∀ desc, tpceDescGetWrite desc = hostAddr req.params.direction desc := fun desc => by
    rw [hdir]
    rfl
  simp only [hhost, inOneRange_iff (channelInfo_dataWidth_pos hch)]
  exact ⟨forall_active_iff (.inr hdir) hload hinit haccepted _,
    forall_active_iff (.inr hdir) hload hinit haccepted _⟩

def strideRequest (id : U32) (stride : U16) : TpceDmaRequest where
  id := id
  params := ⟨0, 0, 4096, 0, 0, stride, 1, tpceDmaModeDefault, tpceDmaFromDevice, 0, 0⟩
  descriptors := 0
  descriptorsSize := 0
  descriptorsType := 0

/-- With a stride of two words a page out of the driver buffer takes two. -/
theorem strides_driver_buffer : ∃ dev', initDmaInfo .granted freshDevice 1 (strideRequest 1 2) = .ok (1, dev') ∧
    ∀ desc ∈ (dev'.dmaInfo 1).active,
      InOneRange (driverBuffer ⟨.last [⟨0x8000000#64, 0x100000#32, 0⟩], 1⟩) 2 (tpceDescGetWrite desc)
        desc.transferLength.toNat desc.writeStride := by
  have hok : (initializedAfter [] .granted 1 (strideRequest 1 2) none).map (·.2.1) = some 1 := by
    decide +kernel
  obtain ⟨⟨err, ret, descs⟩, hafter, rfl⟩ := Option.map_eq_some_iff.mp hok
  obtain ⟨dev, dev', hrun, -, hinit, -⟩ := exists_of_initializedAfter hafter
  obtain rfl : freshDevice = dev := Option.some.inj hrun
  have hch : channelInfo (strideRequest 1 2).params.channel =
      .ok ⟨2#32, 262144#32, 32768#32, 0#8, false, false⟩ := rfl
  have hload : xaLoad freshDevice 1 = some (driverBuffer ⟨.last [⟨0x8000000#64, 0x100000#32, 0⟩], 1⟩) := rfl
  refine ⟨dev', hinit, (strides_iff hch rfl hload hinit (by decide)).1.mpr ?_⟩
  have hreach : Planning.requestReach (strideRequest 1 2).params
      (driverBuffer ⟨.last [⟨0x8000000#64, 0x100000#32, 0⟩], 1⟩) = [(0x8000000#64, 4096)] := by decide +kernel
  have hlength : Planning.pieceLength (strideRequest 1 2).params = 262144 := by decide
  simp only [ForDescriptors]
  rw [if_neg (by decide), hreach, hlength]
  intro s hs k hk
  obtain rfl := List.mem_singleton.mp hs
  obtain rfl : k = 0 := by
    dsimp only at hk
    omega
  exact ⟨⟨0x8000000#64, 0x100000#32, 0⟩, List.mem_singleton_self _, .inr (by decide)⟩

def lockPage : List Op :=
  [.openFile, .lockBuffer 0 ⟨true, 1, 0, 0, ⟨.last [⟨0x100000#64, 4096#32, 0⟩], 1⟩, true, true, true⟩
    ⟨0x10000#64, 4096, 0, 0, tpceDmaFromDevice⟩]

/-- With a stride of two words a page is written to two pages. -/
theorem stride_leaves_page :
    ¬∀ (env : InitEnv) (dev dev' : TpceDev) (c : Channel) (req : TpceDmaRequest) (fileCtx : Option ℕ)
      (ret : ℤ) (ch : TpceDmaChannelInfo) (m : TpceDmaMapInfo), validateDmaRequest dev req fileCtx = 0 →
        channelInfo req.params.channel = .ok ch → 0 < ch.maxStride → xaLoad dev req.id = some m →
        req.params.direction = tpceDmaFromDevice → initDmaInfo env dev c req = .ok (ret, dev') → 0 ≤ ret →
        ∀ desc ∈ (dev'.dmaInfo c).active, InRanges m ch.dataWidth.toNat (tpceDescGetWrite desc)
          desc.transferLength.toNat desc.writeStride := by
  intro h
  have hafter : initializedAfter lockPage .granted 1 (strideRequest 2 2) (some 0) =
      some (0, 1, [(0x100000#64, 4096, 2#16)]) := by decide +kernel
  obtain ⟨dev, dev', hrun, hvalid, hinit, hactive⟩ := exists_of_initializedAfter hafter
  have hentries : (Runs.run step freshDevice lockPage).bind (fun dev =>
      (xaLoad dev 2).map fun m => m.sgt.dmaEntries) = some [⟨0x100000#64, 4096#32, 0⟩] := by decide +kernel
  rw [hrun] at hentries
  obtain ⟨m, hload, hm⟩ := Option.map_eq_some_iff.mp hentries
  obtain ⟨desc, hdesc, heq⟩ := List.mem_map.mp (hactive ▸ List.mem_singleton_self _)
  obtain ⟨haddr, hrest⟩ := Prod.mk.inj heq
  obtain ⟨hlen, hstride⟩ := Prod.mk.inj hrest
  have hall := h .granted dev dev' 1 (strideRequest 2 2) (some 0) 1
    ⟨2#32, 262144#32, 32768#32, 0#8, false, false⟩ m hvalid rfl (by decide) hload rfl hinit (by decide) desc hdesc
  have haddr : tpceDescGetWrite desc = 0x100000#64 := haddr
  rw [haddr, hlen, hstride] at hall
  obtain ⟨sg, hsg, hin⟩ := hall (0x100000 + 2047 * 2 * 2) ⟨2047, by decide, 0, by decide, rfl⟩
  rw [hm] at hsg
  obtain rfl := List.mem_singleton.mp hsg
  exact absurd hin.2 (by decide)

end TpceDrv.StrideConfinement
