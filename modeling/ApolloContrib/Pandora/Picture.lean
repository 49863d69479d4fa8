import Mathlib.Algebra.Group.Int.Defs
import Mathlib.Data.Int.Basic
import ApolloContrib.Library.Access
import ApolloContrib.Pandora.Reassembly

namespace ApolloContrib.Pandora

open ApolloContrib.Library

/-! `processPic` of `pandora_camera.cc`, on a picture of `PandoraClientTask`. -/

abbrev IMAGE_WIDTH : Nat := 1280

abbrev IMAGE_HEIGHT : Nat := 720

inductive Fault where
  | overflow
  | yuvRead
  | rgbWrite
  | bmpWrite
  | matRead
  | badFree
deriving DecidableEq, Repr

/-- A product of two `int`. -/
def intMul (a b : Int) : Except Fault Int :=
  if -2 ^ 31 ≤ a * b ∧ a * b < 2 ^ 31 then .ok (a * b) else .error .overflow

/-- `yuvToRgb` is floating point, and no address comes from it: what it makes of the bytes Y, U
and V. A byte is `none` where it was never written. -/
abbrev YuvToRgb :=
  Option (BitVec 8) → Option (BitVec 8) → Option (BitVec 8) →
    Option (BitVec 8) × Option (BitVec 8) × Option (BitVec 8)

/-- What libjpeg reads in a header: 16 bits for each side and 8 for the components. -/
structure JpegImage where
  width : BitVec 16
  height : BitVec 16
  components : BitVec 8
  scanline : Nat → List (BitVec 8)
  scanline_length : ∀ i, (scanline i).length = width.toNat * components.toNat

/-- What the code goes by and does not decide. `memory` tells which sizes can be allocated,
and `jpeg` is `none` where `jpeg_read_header` does not return 1. -/
structure Surroundings where
  yuvToRgb : YuvToRgb
  memory : Nat → Bool
  jpeg : Buffer → Option JpegImage

structure Mat where
  rows : Nat
  cols : Nat
  data : Buffer
deriving DecidableEq, Repr

inductive Processed where
  /-- The callback is called with it. -/
  | shown (mat : Mat)
  /-- No memory for a `new`, or a size below 0. -/
  | thrown
  | wrongPicId
deriving DecidableEq, Repr

/-- The clone of a `cv::Mat` with three channels over `data`, a pointer that may not be set. -/
def cloneMat (rows cols : Nat) : Option Buffer → Except Fault Mat
  | none => .error .matRead
  | some data =>
      if rows * cols * 3 ≤ data.length then .ok ⟨rows, cols, data.take (rows * cols * 3)⟩
      else .error .matRead

def free : Option Buffer → Except Fault Unit
  | none => .error .badFree
  | some _ => .ok ()

section Convert

variable (around : Surroundings)

def twoPixels (uyvy422 : Buffer) (i j : Nat) (rgb24 : Buffer) : Except Fault Buffer := do
  let iU ← readAt .yuvRead uyvy422 (i + 0)
  let iY0 ← readAt .yuvRead uyvy422 (i + 1)
  let iV ← readAt .yuvRead uyvy422 (i + 2)
  let iY1 ← readAt .yuvRead uyvy422 (i + 3)
  let (iR, iG, iB) := around.yuvToRgb iY0 iU iV
  let (iR', iG', iB') := around.yuvToRgb iY1 iU iV
  writeFrom .rgbWrite rgb24 j [iB, iG, iR, iB', iG', iR']

/-- The loop to `stop`, which is `width * height * 2`. -/
def yuv422ToRgb24Loop (uyvy422 : Buffer) (stop i j : Nat) (rgb24 : Buffer) :
    Except Fault Buffer :=
  if i < stop then do
    let rgb24 ← twoPixels around uyvy422 i j rgb24
    yuv422ToRgb24Loop uyvy422 stop (i + 4) (j + 6) rgb24
  else .ok rgb24
termination_by stop - i

def yuv422ToRgb24 (uyvy422 rgb24 : Buffer) (width height : Int) : Except Fault Buffer := do
  let area ← intMul width height
  let stop ← intMul area 2
  yuv422ToRgb24Loop around uyvy422 stop.toNat 0 0 rgb24

def yuv422ToCvmat (pYUV422 : Buffer) (nWidth nHeight : Int) : Except Fault Processed := do
  let area ← intMul nWidth nHeight
  let size ← intMul area 3
  if size < 0 ∨ around.memory size.toNat = false then return .thrown
  let rgb24Buffer := List.replicate size.toNat none
  let rgb24Buffer ← yuv422ToRgb24 around pYUV422 rgb24Buffer nWidth nHeight
  if nWidth < 0 ∨ nHeight < 0 then return .thrown
  let mat ← cloneMat nHeight.toNat nWidth.toNat (some rgb24Buffer)
  return .shown mat

/-- `malloc`. Nothing can be read or written behind NULL. -/
def allocate (size : Nat) : Buffer :=
  if around.memory size then List.replicate size none else []

/-- `jpeg_read_scanlines`, of one line. -/
def readScanline (image : JpegImage) (rowStride : Nat) (bmpBuffer : Buffer)
    (outputScanline : Nat) : Except Fault Buffer :=
  match memcpy bmpBuffer (outputScanline * rowStride) (image.scanline outputScanline) with
  | none => .error .bmpWrite
  | some bmpBuffer => .ok bmpBuffer

/-- `*bmp`, unless it is left unset with -1. -/
def decompressJpeg (jpgBuffer : Buffer) : Except Fault (Option Buffer) :=
  match around.jpeg jpgBuffer with
  | none => .ok none
  | some image => do
      let area ← intMul image.width.toNat image.height.toNat
      let bmpSize ← intMul area image.components.toNat
      let rowStride := image.width.toNat * image.components.toNat
      let bmpBuffer ← (List.range image.height.toNat).foldlM (readScanline image rowStride)
        (allocate around bmpSize.toNat)
      return some bmpBuffer

/-- One picture of the list. Of `yuv` the first `len` bytes may be read; it is freed at the end
with `pic`, and both are blocks of `PandoraClientTask`. -/
def processPic (pic : PandoraPic) : Except Fault Processed :=
  let yuv := pic.yuv.take pic.header.len.toNat
  if pic.header.picId = 0 then
    yuv422ToCvmat around yuv pic.header.width.toInt pic.header.height.toInt
  else if pic.header.picId.toNat < PANDORA_CAMERA_UNIT then do
    let bmp ← decompressJpeg around yuv
    let mat ← cloneMat IMAGE_HEIGHT IMAGE_WIDTH bmp
    free bmp
    return .shown mat
  else .ok .wrongPicId

/-- A picture that the callback is called with, and the packets it takes. -/
structure Delivered where
  events : List Event
  client : PandoraClient
  reached : run (fun client event => (client.pandoraClientTask event).map Prod.fst)
    PandoraClient.init events = some client
  last : Packet
  next : PandoraClient
  pic : PandoraPic
  called : client.pandoraClientTask (.packet last) = some (next, some pic)

/-- The product fits an `int`, and the picture has an even number of pixels whose bytes are
all there; or there is one with as many bytes as the pictures of the other cameras have. -/
def StaysInside (pic : PandoraPic) : Prop :=
  let len := pic.header.len.toNat
  let size := pic.header.width.toInt * pic.header.height.toInt
  if pic.header.picId = 0 then
    -2 ^ 31 ≤ size * 3 ∧ size * 3 < 2 ^ 31 ∧
      (0 < size → around.memory (size * 3).toNat = true → size % 2 = 0 ∧ size * 2 ≤ len)
  else pic.header.picId.toNat < PANDORA_CAMERA_UNIT →
    ∃ image, around.jpeg (pic.yuv.take len) = some image ∧
      let bmpSize := image.width.toNat * image.height.toNat * image.components.toNat
      IMAGE_HEIGHT * IMAGE_WIDTH * 3 ≤ bmpSize ∧ bmpSize < 2 ^ 31 ∧ around.memory bmpSize = true

end Convert

section Convert

variable {around : Surroundings}

theorem intMul_eq_ok {a b out : Int} :
    intMul a b = .ok out ↔ (-2 ^ 31 ≤ a * b ∧ a * b < 2 ^ 31) ∧ a * b = out := by
  unfold intMul
  split
  next h => rw [and_iff_right h, Except.ok.injEq]
  next h => exact iff_of_false nofun fun hboth => h hboth.1

theorem stays_intMul_bind {a b : Int} {f : Int → Except Fault α} :
    Stays (intMul a b >>= f) ↔ (-2 ^ 31 ≤ a * b ∧ a * b < 2 ^ 31) ∧ Stays (f (a * b)) := by
  unfold intMul
  split
  next h => exact (and_iff_right h).symm
  next h => exact iff_of_false (not_stays_error _) fun hboth => h hboth.1

theorem length_of_twoPixels {uyvy422 rgb24 out : Buffer} {i j : Nat}
    (hout : twoPixels around uyvy422 i j rgb24 = .ok out) : out.length = rgb24.length := by
  unfold twoPixels at hout
  obtain ⟨iU, -, hout⟩ := bind_eq_ok.mp hout
  obtain ⟨iY0, -, hout⟩ := bind_eq_ok.mp hout
  obtain ⟨iV, -, hout⟩ := bind_eq_ok.mp hout
  obtain ⟨iY1, -, hout⟩ := bind_eq_ok.mp hout
  exact length_of_writeFrom hout

theorem stays_twoPixels {uyvy422 rgb24 : Buffer} {i j : Nat} :
    Stays (twoPixels around uyvy422 i j rgb24) ↔
      i + 4 ≤ uyvy422.length ∧ j + 6 ≤ rgb24.length := by
  have hwrite (pixels : List (Option (BitVec 8))) (hpixels : pixels.length = 6) :
      Stays (writeFrom Fault.rgbWrite rgb24 j pixels) ↔ j + 6 ≤ rgb24.length := by
    rw [stays_writeFrom, hpixels]
    exact or_iff_right (List.ne_nil_of_length_pos (by omega))
  unfold twoPixels
  rw [stays_bind_iff fun _ _ => stays_bind_iff fun _ _ => stays_bind_iff fun _ _ =>
    stays_bind_iff fun _ _ => hwrite _ rfl]
  simp only [stays_readAt]
  omega

theorem length_of_yuv422ToRgb24Loop {uyvy422 rgb24 out : Buffer} {stop i j : Nat}
    (hout : yuv422ToRgb24Loop around uyvy422 stop i j rgb24 = .ok out) :
    out.length = rgb24.length := by
  fun_induction yuv422ToRgb24Loop around uyvy422 stop i j rgb24 with
  | case1 i j rgb24 hstop ih =>
      obtain ⟨next, hnext, hout⟩ := bind_eq_ok.mp hout
      rw [ih next hout, length_of_twoPixels hnext]
  | case2 => cases hout; rfl

theorem stays_yuv422ToRgb24Loop {uyvy422 rgb24 : Buffer} {stop i j : Nat} :
    Stays (yuv422ToRgb24Loop around uyvy422 stop i j rgb24) ↔
      stop ≤ i ∨ i + 4 * ((stop - i + 3) / 4) ≤ uyvy422.length ∧
        j + 6 * ((stop - i + 3) / 4) ≤ rgb24.length := by
  fun_induction yuv422ToRgb24Loop around uyvy422 stop i j rgb24 with
  | case1 i j rgb24 hstop ih =>
      have hrest (next : Buffer) (hnext : twoPixels around uyvy422 i j rgb24 = .ok next) :
          Stays (yuv422ToRgb24Loop around uyvy422 stop (i + 4) (j + 6) next) ↔
            stop ≤ i + 4 ∨ i + 4 + 4 * ((stop - (i + 4) + 3) / 4) ≤ uyvy422.length ∧
              j + 6 + 6 * ((stop - (i + 4) + 3) / 4) ≤ rgb24.length := by
        rw [ih next, length_of_twoPixels hnext]
      rw [stays_bind_iff hrest, stays_twoPixels]
      omega
  | case2 i j rgb24 hstop => exact iff_of_true (stays_ok _) (Or.inl (Nat.not_lt.mp hstop))

theorem stays_yuv422ToRgb24 {uyvy422 rgb24 : Buffer} {width height : Int}
    (hfits : -2 ^ 31 ≤ width * height * 3 ∧ width * height * 3 < 2 ^ 31)
    (hsize : rgb24.length = (width * height * 3).toNat) :
    Stays (yuv422ToRgb24 around uyvy422 rgb24 width height) ↔
      (0 < width * height →
        width * height % 2 = 0 ∧ width * height * 2 ≤ uyvy422.length) := by
  unfold yuv422ToRgb24
  rw [stays_intMul_bind, stays_intMul_bind, stays_yuv422ToRgb24Loop, hsize]
  generalize width * height = size at hfits
  rw [and_iff_right (by omega), and_iff_right (by omega)]
  omega

theorem length_of_yuv422ToRgb24 {uyvy422 rgb24 out : Buffer} {width height : Int}
    (hout : yuv422ToRgb24 around uyvy422 rgb24 width height = .ok out) :
    out.length = rgb24.length := by
  obtain ⟨area, -, hout⟩ := bind_eq_ok.mp hout
  obtain ⟨stop, -, hout⟩ := bind_eq_ok.mp hout
  exact length_of_yuv422ToRgb24Loop hout

theorem stays_cloneMat {rows cols : Nat} {data : Buffer} :
    Stays (cloneMat rows cols (some data)) ↔ rows * cols * 3 ≤ data.length := by
  rw [cloneMat]
  split
  next h => exact iff_of_true (stays_ok _) h
  next h => exact iff_of_false (not_stays_error _) h

theorem stays_yuv422ToCvmat {pYUV422 : Buffer} {nWidth nHeight : Int} :
    Stays (yuv422ToCvmat around pYUV422 nWidth nHeight) ↔
      -2 ^ 31 ≤ nWidth * nHeight * 3 ∧ nWidth * nHeight * 3 < 2 ^ 31 ∧
        (0 < nWidth * nHeight → around.memory (nWidth * nHeight * 3).toNat = true →
          nWidth * nHeight % 2 = 0 ∧ nWidth * nHeight * 2 ≤ pYUV422.length) := by
  have hclone (rgb24 : Buffer) (hlength : rgb24.length = (nWidth * nHeight * 3).toNat) :
      Stays (if nWidth < 0 ∨ nHeight < 0 then pure Processed.thrown else do
        let mat ← cloneMat nHeight.toNat nWidth.toNat (some rgb24)
        return Processed.shown mat : Except Fault Processed) := by
    split
    next => exact stays_pure _
    next hneg =>
      obtain ⟨hwidth, hheight⟩ := not_or.mp hneg
      lift nWidth to Nat using Int.not_lt.mp hwidth
      lift nHeight to Nat using Int.not_lt.mp hheight
      refine stays_bind_pure.mpr (stays_cloneMat.mpr (Nat.le_of_eq ?_))
      rw [hlength, Int.toNat_natCast, Int.toNat_natCast, Nat.mul_comm nHeight]
      rfl
  unfold yuv422ToCvmat
  rw [stays_intMul_bind, stays_intMul_bind]
  dsimp only
  split
  next hnone =>
    rw [iff_true_intro (stays_pure Processed.thrown), and_true]
    refine ⟨fun h => ⟨h.2.1, h.2.2, fun hpos hmemory => ?_⟩, fun h => ⟨?_, h.1, h.2.1⟩⟩
    · exact hnone.elim (fun hneg => by omega)
        fun hfull => absurd (hmemory.symm.trans hfull).symm Bool.false_ne_true
    · omega
  next hroom =>
    obtain ⟨hsize, hmemory⟩ := not_or.mp hroom
    rw [stays_bind_iff fun rgb24 hout => iff_true_intro (hclone rgb24 ?_), and_true]
    · constructor
      · rintro ⟨-, hfits, hstays⟩
        rw [stays_yuv422ToRgb24 hfits List.length_replicate] at hstays
        exact ⟨hfits.1, hfits.2, fun hpos _ => hstays hpos⟩
      · rintro ⟨hlow, hhigh, hinside⟩
        refine ⟨by omega, ⟨hlow, hhigh⟩, ?_⟩
        rw [stays_yuv422ToRgb24 ⟨hlow, hhigh⟩ List.length_replicate]
        exact fun hpos => hinside hpos (Bool.not_eq_false _ ▸ hmemory)
    · rw [length_of_yuv422ToRgb24 hout, List.length_replicate]

theorem length_of_readScanline {image : JpegImage} {rowStride outputScanline : Nat}
    {bmpBuffer out : Buffer}
    (hout : readScanline image rowStride bmpBuffer outputScanline = .ok out) :
    out.length = bmpBuffer.length := by
  unfold readScanline at hout
  split at hout
  next => cases hout
  next written hcopy =>
    cases hout
    exact (memcpy_eq_some hcopy).2.1

theorem readScanline_ok {image : JpegImage} {outputScanline : Nat} {bmpBuffer : Buffer}
    (hsize : bmpBuffer.length =
      image.width.toNat * image.height.toNat * image.components.toNat)
    (hline : outputScanline < image.height.toNat) :
    ∃ out, readScanline image (image.width.toNat * image.components.toNat) bmpBuffer
      outputScanline = .ok out ∧ out.length = bmpBuffer.length := by
  have hfits : outputScanline * (image.width.toNat * image.components.toNat) +
      (image.scanline outputScanline).length ≤ bmpBuffer.length := by
    calc outputScanline * (image.width.toNat * image.components.toNat) +
          (image.scanline outputScanline).length
      _ = (outputScanline + 1) * (image.width.toNat * image.components.toNat) := by
          rw [image.scanline_length, Nat.succ_mul]
      _ ≤ image.height.toNat * (image.width.toNat * image.components.toNat) :=
          Nat.mul_le_mul_right _ hline
      _ = bmpBuffer.length := by
          rw [hsize, Nat.mul_left_comm, ← Nat.mul_assoc]
  cases hcopy : memcpy bmpBuffer (outputScanline * (image.width.toNat * image.components.toNat))
      (image.scanline outputScanline) with
  | none => exact absurd hfits (memcpy_eq_none_iff.mp hcopy)
  | some written =>
      refine ⟨written, ?_, (memcpy_eq_some hcopy).2.1⟩
      rw [readScanline, hcopy]

theorem length_allocate (size : Nat) :
    (allocate around size).length = if around.memory size = true then size else 0 := by
  unfold allocate
  split
  · exact List.length_replicate
  · rfl

section Decompress

variable {jpgBuffer : Buffer} {image : JpegImage}

theorem decompressJpeg_eq_ok {bmp : Option Buffer} (himage : around.jpeg jpgBuffer = some image)
    (hout : decompressJpeg around jpgBuffer = .ok bmp) :
    ∃ data, bmp = some data ∧
      image.width.toNat * image.height.toNat * image.components.toNat < 2 ^ 31 ∧
      data.length = (allocate around
        (image.width.toNat * image.height.toNat * image.components.toNat)).length := by
  unfold decompressJpeg at hout
  rw [himage] at hout
  obtain ⟨area, harea, hsized⟩ := bind_eq_ok.mp hout
  obtain ⟨bmpSize, hbmpSize, hread⟩ := bind_eq_ok.mp hsized
  obtain ⟨data, hdata, hbmp⟩ := bind_eq_ok.mp hread
  obtain ⟨-, rfl⟩ := intMul_eq_ok.mp harea
  obtain ⟨hfits, rfl⟩ := intMul_eq_ok.mp hbmpSize
  obtain rfl : some data = bmp := Except.ok.inj hbmp
  refine ⟨data, rfl, by exact_mod_cast hfits.2, ?_⟩
  refine foldlM_kept (fun buffer => buffer.length = (allocate around
    (image.width.toNat * image.height.toNat * image.components.toNat)).length) ?_ rfl hdata
  exact fun _ _ _ _ hlength hnext => (length_of_readScanline hnext).trans hlength

theorem stays_decompressJpeg (himage : around.jpeg jpgBuffer = some image)
    (hpos : 0 < image.components.toNat)
    (hfits : image.width.toNat * image.height.toNat * image.components.toNat < 2 ^ 31)
    (hmemory : around.memory
      (image.width.toNat * image.height.toNat * image.components.toNat) = true) :
    Stays (decompressJpeg around jpgBuffer) := by
  have harea : image.width.toNat * image.height.toNat < 2 ^ 31 :=
    Nat.lt_of_le_of_lt (Nat.le_mul_of_pos_right _ hpos) hfits
  have hbounds {n : Nat} (hn : n < 2 ^ 31) : -2 ^ 31 ≤ (n : Int) ∧ (n : Int) < 2 ^ 31 := by omega
  unfold decompressJpeg
  rw [himage]
  dsimp only
  rw [stays_intMul_bind, stays_intMul_bind]
  refine ⟨by exact_mod_cast hbounds harea, by exact_mod_cast hbounds hfits, ?_⟩
  have hallocated : (allocate around
      (image.width.toNat * image.height.toNat * image.components.toNat)).length =
      image.width.toNat * image.height.toNat * image.components.toNat := by
    rw [length_allocate, if_pos hmemory]
  refine stays_bind_pure.mpr (stays_foldlM (fun buffer => buffer.length =
    image.width.toNat * image.height.toNat * image.components.toNat) ?_ hallocated)
  intro buffer hlength line hline
  obtain ⟨out, hout, hkept⟩ := readScanline_ok hlength (List.mem_range.mp hline)
  exact ⟨out, hout, hkept.trans hlength⟩

theorem stays_jpeg :
    Stays (do
        let bmp ← decompressJpeg around jpgBuffer
        let mat ← cloneMat IMAGE_HEIGHT IMAGE_WIDTH bmp
        free bmp
        return Processed.shown mat) ↔
      ∃ image, around.jpeg jpgBuffer = some image ∧
        let bmpSize := image.width.toNat * image.height.toNat * image.components.toNat
        IMAGE_HEIGHT * IMAGE_WIDTH * 3 ≤ bmpSize ∧ bmpSize < 2 ^ 31 ∧
          around.memory bmpSize = true := by
  constructor
  · intro hstays
    obtain ⟨bmp, hbmp, hstays⟩ := stays_bind.mp hstays
    cases himage : around.jpeg jpgBuffer with
    | none =>
        rw [decompressJpeg, himage] at hbmp
        cases hbmp
        exact absurd hstays (not_stays_error _)
    | some image =>
        obtain ⟨data, rfl, hfits, hlength⟩ := decompressJpeg_eq_ok himage hbmp
        obtain ⟨mat, hmat, -⟩ := stays_bind.mp hstays
        have hread := stays_cloneMat.mp ⟨mat, hmat⟩
        rw [hlength, length_allocate] at hread
        split at hread
        next hmemory => exact ⟨image, rfl, hread, hfits, hmemory⟩
        next => exact absurd hread (by decide)
  · rintro ⟨image, himage, hwhole, hfits, hmemory⟩
    have hpos : 0 < image.components.toNat :=
      Nat.pos_of_ne_zero fun hzero => by
        rw [hzero, Nat.mul_zero] at hwhole
        exact absurd hwhole (by decide)
    obtain ⟨bmp, hbmp⟩ := stays_decompressJpeg himage hpos hfits hmemory
    obtain ⟨data, rfl, -, hlength⟩ := decompressJpeg_eq_ok himage hbmp
    rw [length_allocate, if_pos hmemory] at hlength
    refine stays_bind.mpr ⟨some data, hbmp, stays_bind.mpr ?_⟩
    obtain ⟨mat, hmat⟩ := stays_cloneMat.mpr (hlength.symm ▸ hwhole)
    exact ⟨mat, hmat, stays_pure _⟩

end Decompress

end Convert

/-- The buffer may be longer: its size is what the first packet says, and `len` what the last
one does. -/
theorem Delivered.len_le (delivered : Delivered) :
    delivered.pic.header.len.toNat ≤ delivered.pic.yuv.length := by
  obtain ⟨_, client, _, last, next, pic, hcalled⟩ := delivered
  dsimp only
  rw [PandoraClient.pandoraClientTask] at hcalled
  split at hcalled
  next => cases hcalled
  next hread =>
    split at hcalled
    next => cases hcalled
    next c hcamera =>
      obtain ⟨⟨camera, called⟩, hreceive, hnext⟩ := Option.map_eq_some_iff.mp hcalled
      obtain rfl : called = some pic := congrArg Prod.snd hnext
      obtain ⟨-, -, hnone⟩ | ⟨yuv, -, hcopy, hlast⟩ := Camera.receive_cases hreceive
      · cases hnone
      · obtain ⟨htotal, -, -, hpic⟩ | ⟨-, -, -, hnone⟩ := hlast
        · obtain ⟨hfits, hlength, -⟩ := memcpy_eq_some hcopy
          obtain rfl := Option.some.inj hpic
          calc last.header.totalLen.toNat
            _ ≤ (client.cameras c).position.toNat + last.header.len.toNat := by
                rw [← htotal, BitVec.toNat_add]
                exact Nat.mod_le _ _
            _ = (client.cameras c).position.toNat + last.yuv.length := by rw [last.len_toNat]
            _ ≤ yuv.length := hlength ▸ hfits
        · cases hnone

/-- The picture conversion stays in its buffers, for exactly these pictures. -/
theorem processPic_iff (around : Surroundings) (delivered : Delivered) :
    Stays (processPic around delivered.pic) ↔ StaysInside around delivered.pic := by
  have hlength : (delivered.pic.yuv.take delivered.pic.header.len.toNat).length =
      delivered.pic.header.len.toNat := List.length_take_of_le delivered.len_le
  unfold processPic StaysInside
  dsimp only
  split
  next => rw [stays_yuv422ToCvmat, hlength]
  next =>
    split
    next hcamera => rw [stays_jpeg, forall_prop_of_true hcamera]
    next hcamera => exact iff_of_true (stays_ok _) fun h => absurd h hcamera

/-- A picture of one pixel has no room for the second. -/
theorem processPic_fails :
    ¬ ∀ around (delivered : Delivered), Stays (processPic around delivered.pic) := by
  intro hall
  let delivered : Delivered :=
    { events := []
      client := PandoraClient.init
      reached := rfl
      last := History.packet 0 4 [128, 16, 128, 16]
      next := _
      pic := _
      called := rfl }
  have hstays := (processPic_iff ⟨fun _ _ _ => (none, none, none), fun _ => true, fun _ => none⟩
    delivered).mp (hall _ delivered)
  have hodd := (hstays.2.2 (by decide) rfl).1
  exact absurd hodd (by decide)

end ApolloContrib.Pandora
