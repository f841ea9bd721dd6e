import TpceDrv.Requests
import TpceDrv.Library.Buffers

namespace TpceDrv.UserStructs

open DmaParams Mapping Device Requests Library.Buffers

def u8At (b : Bytes) (offset : ℕ) : U8 := b offset
def u16At (b : Bytes) (offset : ℕ) : U16 := BitVec.ofNat 16 (readLE b offset 2)
def u32At (b : Bytes) (offset : ℕ) : U32 := BitVec.ofNat 32 (readLE b offset 4)
def u64At (b : Bytes) (offset : ℕ) : U64 := BitVec.ofNat 64 (readLE b offset 8)

def u32Bytes (v : U32) : List Byte := bytesLE 4 v.toNat

structure TPciDevReg where
  offset : U32
  addrSpace : U32
  size : U32
  data : U32
  deriving DecidableEq, Repr

structure TPciConfReg where
  offset : U32
  data : U32
  size : U32
  isWrite : U8
  deriving DecidableEq, Repr

structure TDmaRequestData where
  pUserVA : U64
  bytesCount : U32
  localAddress : U32
  readStride : U16
  writeStride : U16
  channel : U8
  burstCount : U8
  deriving DecidableEq, Repr

/-- The fields of `T_DMA_TPCE_DATA_READ` that the driver reads -/
structure TDmaTpceDataRead where
  address : U32
  input : U32
  dmaChannel : U32
  mux8ChannelEn : U32
  nextAddress : U32
  addrBlockSize : U32
  addrBlockNr : U32
  count : U32
  data : U64
  burstCount : U8
  deriving DecidableEq, Repr

def pciDevReg (b : Bytes) : TPciDevReg := ⟨u32At b 0, u32At b 4, u32At b 8, u32At b 12⟩

def pciConfReg (b : Bytes) : TPciConfReg := ⟨u32At b 0, u32At b 4, u32At b 8, u8At b 12⟩

def dmaRequestData (b : Bytes) : TDmaRequestData :=
  ⟨u64At b 0, u32At b 8, u32At b 12, u16At b 16, u16At b 18, u8At b 20, u8At b 21⟩

def dmaTpceDataRead (b : Bytes) : TDmaTpceDataRead :=
  ⟨u32At b 0, u32At b 4, u32At b 8, u32At b 12, u32At b 16, u32At b 40, u32At b 44, u32At b 48, u64At b 56,
    u8At b 80⟩

def dmaBufIn (b : Bytes) : TpceDmaBufIn := ⟨u64At b 0, u32At b 8, u64At b 16, u32At b 24, u8At b 28⟩

def transferParams (b : Bytes) (start : ℕ) : TpceDmaTransferParams :=
  ⟨u32At b start, u32At b (start + 4), u32At b (start + 8), u32At b (start + 12), u16At b (start + 16),
    u16At b (start + 18), u8At b (start + 20), u8At b (start + 21), u8At b (start + 22), u8At b (start + 23),
    u8At b (start + 24)⟩

def dmaRequest (b : Bytes) : TpceDmaRequest :=
  ⟨u32At b 0, transferParams b 8, u64At b 40, u32At b 48, u8At b 52⟩

/-- `tpce_dma_buf_out` -/
def dmaBufOut (id numPages : U32) : List Byte := u32Bytes id ++ u32Bytes numPages

variable {b b' : Bytes} {n : ℕ}

theorem u8At_congr (h : AgreeBelow n b b') (offset : ℕ) (hfit : offset + 1 ≤ n) : u8At b offset = u8At b' offset :=
  h offset hfit

theorem u16At_congr (h : AgreeBelow n b b') (offset : ℕ) (hfit : offset + 2 ≤ n) :
    u16At b offset = u16At b' offset := congrArg (BitVec.ofNat 16) (h.readLE hfit)

theorem u32At_congr (h : AgreeBelow n b b') (offset : ℕ) (hfit : offset + 4 ≤ n) :
    u32At b offset = u32At b' offset := congrArg (BitVec.ofNat 32) (h.readLE hfit)

theorem u64At_congr (h : AgreeBelow n b b') (offset : ℕ) (hfit : offset + 8 ≤ n) :
    u64At b offset = u64At b' offset := congrArg (BitVec.ofNat 64) (h.readLE hfit)

theorem pciDevReg_congr (h : AgreeBelow 16 b b') : pciDevReg b = pciDevReg b' := by
  simp only [pciDevReg]
  rw [u32At_congr h 0 (by decide), u32At_congr h 4 (by decide), u32At_congr h 8 (by decide),
    u32At_congr h 12 (by decide)]

theorem pciConfReg_congr (h : AgreeBelow 13 b b') : pciConfReg b = pciConfReg b' := by
  simp only [pciConfReg]
  rw [u32At_congr h 0 (by decide), u32At_congr h 4 (by decide), u32At_congr h 8 (by decide),
    u8At_congr h 12 (by decide)]

theorem dmaRequestData_congr (h : AgreeBelow 22 b b') : dmaRequestData b = dmaRequestData b' := by
  simp only [dmaRequestData]
  rw [u64At_congr h 0 (by decide), u32At_congr h 8 (by decide), u32At_congr h 12 (by decide),
    u16At_congr h 16 (by decide), u16At_congr h 18 (by decide), u8At_congr h 20 (by decide),
    u8At_congr h 21 (by decide)]

theorem dmaTpceDataRead_congr (h : AgreeBelow 81 b b') : dmaTpceDataRead b = dmaTpceDataRead b' := by
  simp only [dmaTpceDataRead]
  rw [u32At_congr h 0 (by decide), u32At_congr h 4 (by decide), u32At_congr h 8 (by decide),
    u32At_congr h 12 (by decide), u32At_congr h 16 (by decide), u32At_congr h 40 (by decide),
    u32At_congr h 44 (by decide), u32At_congr h 48 (by decide), u64At_congr h 56 (by decide),
    u8At_congr h 80 (by decide)]

theorem dmaBufIn_congr (h : AgreeBelow 29 b b') : dmaBufIn b = dmaBufIn b' := by
  simp only [dmaBufIn]
  rw [u64At_congr h 0 (by decide), u32At_congr h 8 (by decide), u64At_congr h 16 (by decide),
    u32At_congr h 24 (by decide), u8At_congr h 28 (by decide)]

theorem transferParams_congr {start : ℕ} (h : AgreeBelow (start + 25) b b') :
    transferParams b start = transferParams b' start := by
  simp only [transferParams]
  rw [u32At_congr h start (by omega), u32At_congr h (start + 4) (by omega), u32At_congr h (start + 8) (by omega),
    u32At_congr h (start + 12) (by omega), u16At_congr h (start + 16) (by omega),
    u16At_congr h (start + 18) (by omega), u8At_congr h (start + 20) (by omega),
    u8At_congr h (start + 21) (by omega), u8At_congr h (start + 22) (by omega), u8At_congr h (start + 23) (by omega),
    u8At_congr h (start + 24) (by omega)]

theorem dmaRequest_congr (h : AgreeBelow 53 b b') : dmaRequest b = dmaRequest b' := by
  simp only [dmaRequest]
  rw [u32At_congr h 0 (by decide), transferParams_congr (h.mono (by decide)), u64At_congr h 40 (by decide),
    u32At_congr h 48 (by decide), u8At_congr h 52 (by decide)]

end TpceDrv.UserStructs
