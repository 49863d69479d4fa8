import ApolloContrib.Cam.Camera
import Mathlib.Algebra.Group.Nat.Defs
import Mathlib.Data.List.Nodup

namespace ApolloContrib.Cam

open ApolloContrib.Library

/-! `zcam_flash_write`: the flash is programmed page by page. -/

def FLASH_PAGE_SIZE : Nat := 32
def FLASH_WRITE_LIMIT : Nat := REG_PARAM_POOL_SIZE - 5

/-- The local variables of the loops over the flash; `data` points to `buffer[pos]`. -/
structure FlashVars where
  address : BitVec 32
  pos : Nat
  size : Nat
deriving DecidableEq, Repr

namespace FlashVars

def start (address size : BitVec 32) : FlashVars := ⟨address, 0, size.toNat⟩

def advance (vars : FlashVars) (len : Nat) : FlashVars :=
  ⟨vars.address + BitVec.ofNat 32 len, vars.pos + len, vars.size - len⟩

end FlashVars

/-- `params[0]` to `params[4]`. -/
def flashParams (address : BitVec 32) (len : Nat) : Nat → BitVec 8
  | 0 => address.extractLsb' 24 8
  | 1 => address.extractLsb' 16 8
  | 2 => address.extractLsb' 8 8
  | 3 => address.extractLsb' 0 8
  | _ => BitVec.ofNat 8 len

def writeLen (address : BitVec 32) (size : Nat) : Nat :=
  let len := if size > FLASH_WRITE_LIMIT then FLASH_WRITE_LIMIT else size
  let off := address.toNat % FLASH_PAGE_SIZE
  -- the write should not span a page boundary
  if off + len > FLASH_PAGE_SIZE then FLASH_PAGE_SIZE - off else len

def flashWriteRound (bus : I2cBus) (data : Nat → BitVec 8) (vars : FlashVars) :
    CamM FlashVars := do
  let len := writeLen vars.address vars.size
  zcamParamsWrite bus 0 (flashParams vars.address len) 5
  zcamParamsWrite bus 5 (fun i => data (vars.pos + i)) (BitVec.ofNat 8 len)
  zcamCommand bus CMD_FLASH_WRITE
  zcamFlashStatus bus
  pure (vars.advance len)

/-- Every round lowers `size`. -/
def zcamFlashWrite (bus : I2cBus) (index : BitVec 8) (address : BitVec 32)
    (data : Nat → BitVec 8) (size : BitVec 32) (trace : Trace) : Option (Int × Trace) :=
  underLock bus index
    (whileM (fun vars => vars.size > 0) (flashWriteRound bus data) (size.toNat + 1)
      (FlashVars.start address size)) trace

namespace Command

def address (p : Command) : BitVec 32 :=
  p.pool 0 ++ p.pool 1 ++ p.pool 2 ++ p.pool 3

def length (p : Command) : Nat := (p.pool 4).toNat

/-- The bytes that `CMD_FLASH_WRITE` programs, each with its address. -/
def bytes (p : Command) : List (BitVec 32 × BitVec 8) :=
  (List.range p.length).map fun j => (p.address + BitVec.ofNat 32 j, p.pool (5 + j))

def InPage (p : Command) : Prop :=
  0 < p.length ∧ p.address.toNat % FLASH_PAGE_SIZE + p.length ≤ FLASH_PAGE_SIZE

end Command

/-- The first `n` bytes to program. -/
def flashBytes (address : BitVec 32) (data : Nat → BitVec 8) (n : Nat) :
    List (BitVec 32 × BitVec 8) :=
  (List.range n).map fun i => (address + BitVec.ofNat 32 i, data i)

/-- The camera has been told to program the first `n` bytes, page by page. -/
def Programmed (address : BitVec 32) (data : Nat → BitVec 8) (n : Nat) (c c' : Camera) : Prop :=
  ∃ programs, c'.issued CMD_FLASH_WRITE = c.issued CMD_FLASH_WRITE ++ programs ∧
    (∀ p ∈ programs, p.InPage) ∧
    programs.flatMap Command.bytes = flashBytes address data n

section Write

variable {address : BitVec 32} {data : Nat → BitVec 8} {n : Nat}

theorem writeLen_spec (address : BitVec 32) {size : Nat} (hsize : 0 < size) :
    0 < writeLen address size ∧ writeLen address size ≤ size ∧
      address.toNat % FLASH_PAGE_SIZE + writeLen address size ≤ FLASH_PAGE_SIZE := by
  have hoff : address.toNat % FLASH_PAGE_SIZE < FLASH_PAGE_SIZE :=
    Nat.mod_lt _ (by decide)
  have hlimit : FLASH_PAGE_SIZE ≤ FLASH_WRITE_LIMIT := by decide
  unfold writeLen
  dsimp only
  split_ifs <;> omega

theorem flashBytes_add (address : BitVec 32) (data : Nat → BitVec 8) (n len : Nat) :
    flashBytes address data (n + len) = flashBytes address data n ++
      flashBytes (address + BitVec.ofNat 32 n) (fun i => data (n + i)) len := by
  unfold flashBytes
  rw [List.range_add, List.map_append, List.map_map]
  refine congrArg _ (List.map_congr_left fun i _ => ?_)
  rw [Function.comp_apply, BitVec.ofNat_add, BitVec.add_assoc]

theorem flashBytes_nodup (address : BitVec 32) (data : Nat → BitVec 8) (hn : n < 2 ^ 32) :
    ((flashBytes address data n).map Prod.fst).Nodup := by
  unfold flashBytes
  rw [List.map_map]
  refine List.Nodup.map_on ?_ List.nodup_range
  intro i hi j hj heq
  rw [List.mem_range] at hi hj
  have hoffset := congrArg BitVec.toNat ((BitVec.add_right_inj address).mp heq)
  rwa [BitVec.toNat_ofNat, BitVec.toNat_ofNat, Nat.mod_eq_of_lt (by omega),
    Nat.mod_eq_of_lt (by omega)] at hoffset

theorem programmed_zero (address : BitVec 32) (data : Nat → BitVec 8) (c : Camera) :
    Programmed address data 0 c c :=
  ⟨[], (List.append_nil _).symm, nofun, rfl⟩

theorem Programmed.same {c c' c'' : Camera} (hprogrammed : Programmed address data n c c')
    (hissued : c''.issued CMD_FLASH_WRITE = c'.issued CMD_FLASH_WRITE) :
    Programmed address data n c c'' := by
  obtain ⟨programs, heq, hpages, hbytes⟩ := hprogrammed
  exact ⟨programs, hissued.trans heq, hpages, hbytes⟩

theorem flashParams_address (address : BitVec 32) (len : Nat) :
    flashParams address len 0 ++ flashParams address len 1 ++ flashParams address len 2 ++
      flashParams address len 3 = address := by
  have hhigh : address.extractLsb' 24 8 ++ address.extractLsb' 16 8 = address.extractLsb' 16 16 :=
    BitVec.extractLsb'_append_extractLsb'_eq_extractLsb' rfl
  have hmid : address.extractLsb' 16 16 ++ address.extractLsb' 8 8 = address.extractLsb' 8 24 :=
    BitVec.extractLsb'_append_extractLsb'_eq_extractLsb' rfl
  have hlow : address.extractLsb' 8 24 ++ address.extractLsb' 0 8 = address.extractLsb' 0 32 :=
    BitVec.extractLsb'_append_extractLsb'_eq_extractLsb' rfl
  simp only [flashParams, hhigh, hmid, hlow]
  exact BitVec.extractLsb'_eq_self

def Described (address : BitVec 32) (len : Nat) (pool : Nat → BitVec 8) : Prop :=
  ∀ i < 5, pool i = flashParams address len i

theorem Described.address_eq {len : Nat} {p : Command} (hparams : Described address len p.pool) :
    p.address = address := by
  unfold Command.address
  rw [hparams 0 (by omega), hparams 1 (by omega), hparams 2 (by omega), hparams 3 (by omega)]
  exact flashParams_address address len

theorem Described.length_eq {len : Nat} {p : Command} (hparams : Described address len p.pool) :
    p.length = len % 2 ^ 8 := by
  unfold Command.length
  rw [hparams 4 (by omega)]
  exact BitVec.toNat_ofNat len 8

def Loaded (address : BitVec 32) (data : Nat → BitVec 8) (len : Nat) (pool : Nat → BitVec 8) :
    Prop :=
  Described address len pool ∧ ∀ i < len, pool (5 + i) = data i

theorem loaded_of_sets {len : Nat} {c c' c'' : Camera}
    (hparams : Camera.Sets 0 (flashParams address len) 5 c c')
    (hdata : Camera.Sets 5 data len c' c'') : Loaded address data len c''.pool := by
  refine ⟨fun i hi => ?_, fun i hi => ?_⟩
  · rw [hdata.2, if_neg (by omega), hparams.2, if_pos (by omega), Nat.sub_zero]
  · rw [hdata.2, if_pos (by omega), Nat.add_sub_cancel_left]

theorem Loaded.bytes_eq {len : Nat} {p : Command} (hloaded : Loaded address data len p.pool)
    (hlen : len < 256) : p.bytes = flashBytes address data len := by
  have hmod : len % 2 ^ 8 = len := Nat.mod_eq_of_lt hlen
  unfold Command.bytes flashBytes
  rw [hloaded.1.address_eq, hloaded.1.length_eq, hmod]
  refine List.map_congr_left fun i hi => ?_
  rw [hloaded.2 i (List.mem_range.mp hi)]

theorem Programmed.append {c c' c'' : Camera} {pool : Nat → BitVec 8} {len : Nat}
    (hprogrammed : Programmed address data n c c')
    (hloaded : Loaded (address + BitVec.ofNat 32 n) (fun i => data (n + i)) len pool)
    (hpos : 0 < len)
    (hpage : (address + BitVec.ofNat 32 n).toNat % FLASH_PAGE_SIZE + len ≤ FLASH_PAGE_SIZE)
    (hissued : c''.issued CMD_FLASH_WRITE =
      c'.issued CMD_FLASH_WRITE ++ [⟨CMD_FLASH_WRITE, pool⟩]) :
    Programmed address data (n + len) c c'' := by
  obtain ⟨programs, heq, hpages, hbytes⟩ := hprogrammed
  have hshort : len < 256 := by
    unfold FLASH_PAGE_SIZE at hpage
    omega
  refine ⟨programs ++ [⟨CMD_FLASH_WRITE, pool⟩], ?_, ?_, ?_⟩
  · rw [hissued, heq, List.append_assoc]
  · intro p hp
    rcases List.mem_append.mp hp with hold | hnew
    · exact hpages p hold
    · obtain rfl := List.mem_singleton.mp hnew
      have hmod : len % 2 ^ 8 = len := Nat.mod_eq_of_lt hshort
      unfold Command.InPage
      rw [hloaded.1.address_eq (p := ⟨CMD_FLASH_WRITE, pool⟩),
        hloaded.1.length_eq (p := ⟨CMD_FLASH_WRITE, pool⟩), hmod]
      exact ⟨hpos, hpage⟩
  · rw [List.flatMap_append, hbytes, flashBytes_add, List.flatMap_singleton,
      hloaded.bytes_eq (p := ⟨CMD_FLASH_WRITE, pool⟩) hshort]

theorem programChunk_issues (bus : I2cBus) (respond : Response) (data : Nat → BitVec 8)
    (len : BitVec 8) (vars : FlashVars) :
    Drives respond (do
        zcamParamsWrite bus 5 data len
        zcamCommand bus CMD_FLASH_WRITE
        zcamFlashStatus bus
        pure vars)
      (fun c c' => ∃ loaded, Camera.Sets 5 data len.toNat c loaded ∧
        c'.issued CMD_FLASH_WRITE = c.issued CMD_FLASH_WRITE ++ [⟨CMD_FLASH_WRITE, loaded.pool⟩])
      (fun c c' => c'.issued CMD_FLASH_WRITE = c.issued CMD_FLASH_WRITE ∨
        ∃ loaded, Camera.Sets 5 data len.toNat c loaded ∧
          c'.issued CMD_FLASH_WRITE =
            c.issued CMD_FLASH_WRITE ++ [⟨CMD_FLASH_WRITE, loaded.pool⟩]) := by
  have hcommand : Drives respond (do
        zcamCommand bus CMD_FLASH_WRITE
        zcamFlashStatus bus
        pure vars)
      (fun c c' => c'.issued CMD_FLASH_WRITE =
        c.issued CMD_FLASH_WRITE ++ [⟨CMD_FLASH_WRITE, c.pool⟩])
      (fun c c' => c'.issued CMD_FLASH_WRITE = c.issued CMD_FLASH_WRITE ∨
        c'.issued CMD_FLASH_WRITE =
          c.issued CMD_FLASH_WRITE ++ [⟨CMD_FLASH_WRITE, c.pool⟩]) := by
    refine (zcamCommand_gets respond CMD_FLASH_WRITE).bind (fun _ =>
      (zcamFlashStatus_polled respond).then_unseen (fun _ => drives_pure vars fun _ => rfl)
        fun _ _ => id) ?_ ?_ ?_
    · intro c c' c'' hgets hpolled
      rw [hpolled.1 _ (by decide), hgets.issued]
    · rintro c c' (hsame | hgets)
      · exact Or.inl (Camera.issued_of_commands hsame.2 _)
      · exact Or.inr hgets.issued
    · intro c c' c'' hgets hpolled
      rw [hpolled.1 _ (by decide), hgets.issued]
      exact Or.inr rfl
  refine (zcamParamsWrite_sets respond 5 data len).bind (fun _ => hcommand) ?_ ?_ ?_
  · intro c c' c'' hsets hissued
    refine ⟨c', hsets, ?_⟩
    rw [hissued, Camera.issued_of_commands hsets.1]
  · intro c c' hsame
    exact Or.inl (Camera.issued_of_commands hsame _)
  · intro c c' c'' hsets hissued
    rw [Camera.issued_of_commands hsets.1] at hissued
    exact hissued.imp id fun hnew => ⟨c', hsets, hnew⟩

theorem flashWriteRound_programs (bus : I2cBus) (respond : Response) (vars : FlashVars)
    (haddress : vars.address = address + BitVec.ofNat 32 vars.pos) (hsize : 0 < vars.size) :
    Drives respond (flashWriteRound bus data vars)
      (fun c' c'' => ∀ c, Programmed address data vars.pos c c' →
        Programmed address data (vars.pos + writeLen vars.address vars.size) c c'')
      (fun c' c'' => ∀ c, Programmed address data vars.pos c c' →
        ∃ n ≤ vars.pos + vars.size, Programmed address data n c c'') := by
  obtain ⟨hpos, hle, hpage⟩ := writeLen_spec vars.address hsize
  have hshort : writeLen vars.address vars.size < 2 ^ 8 := by
    unfold FLASH_PAGE_SIZE at hpage
    omega
  unfold flashWriteRound
  dsimp only
  generalize writeLen vars.address vars.size = len at *
  have hissues := programChunk_issues bus respond (fun i => data (vars.pos + i))
    (BitVec.ofNat 8 len) (vars.advance len)
  rw [BitVec.toNat_ofNat, Nat.mod_eq_of_lt hshort] at hissues
  rw [haddress] at hpage ⊢
  have happend (c c' c'' last loaded : Camera) (hprogrammed : Programmed address data vars.pos c c')
      (hparams : Camera.Sets 0 (flashParams (address + BitVec.ofNat 32 vars.pos) len) 5 c' c'')
      (hdata : Camera.Sets 5 (fun i => data (vars.pos + i)) len c'' loaded)
      (hissued : last.issued CMD_FLASH_WRITE =
        c''.issued CMD_FLASH_WRITE ++ [⟨CMD_FLASH_WRITE, loaded.pool⟩]) :
      Programmed address data (vars.pos + len) c last :=
    (hprogrammed.same (Camera.issued_of_commands hparams.1 _)).append
      (loaded_of_sets hparams hdata) hpos hpage hissued
  refine (zcamParamsWrite_sets respond 0 _ 5).bind (fun _ => hissues) ?_ ?_ ?_
  · rintro c' c'' last hparams ⟨loaded, hdata, hissued⟩ c hprogrammed
    exact happend c c' c'' last loaded hprogrammed hparams hdata hissued
  · intro c' c'' hsame c hprogrammed
    exact ⟨vars.pos, by omega, hprogrammed.same (Camera.issued_of_commands hsame _)⟩
  · rintro c' c'' last hparams hlast c hprogrammed
    rcases hlast with hkept | ⟨loaded, hdata, hissued⟩
    · exact ⟨vars.pos, by omega,
        (hprogrammed.same (Camera.issued_of_commands hparams.1 _)).same hkept⟩
    · exact ⟨_, by omega, happend c c' c'' last loaded hprogrammed hparams hdata hissued⟩

theorem flashWriteRound_value (bus : I2cBus) (data : Nat → BitVec 8) (vars : FlashVars)
    (trace : Trace) :
    Ends (flashWriteRound bus data vars) trace
      (fun vars' _ => vars' = vars.advance (writeLen vars.address vars.size)) fun _ _ => True :=
  Ends.last fun _ _ => Ends.last fun _ _ => Ends.last fun _ _ => Ends.last fun _ _ =>
    ends_pure.mpr rfl

theorem flashWriteRound_blames (bus : I2cBus) (data : Nat → BitVec 8) (vars : FlashVars)
    (hsize : 0 < vars.size) : Blames (flashWriteRound bus data vars) := by
  obtain ⟨-, -, hpage⟩ := writeLen_spec vars.address hsize
  unfold flashWriteRound
  dsimp only
  refine (zcamParamsWrite_blames bus 0 _ 5 (by decide)).bind fun _ => ?_
  refine (zcamParamsWrite_blames bus 5 _ _ ?_).bind fun _ => ?_
  · have hshort : writeLen vars.address vars.size ≤ FLASH_PAGE_SIZE := by omega
    have hcut := Nat.mod_le (writeLen vars.address vars.size) (2 ^ 8)
    rw [BitVec.toNat_ofNat]
    change 5 + _ ≤ REG_PARAM_POOL_SIZE
    unfold FLASH_PAGE_SIZE at hshort
    unfold REG_PARAM_POOL_SIZE
    omega
  · exact (zcamCommand_blames bus _).bind fun _ => (zcamFlashStatus_blames bus).bind fun _ =>
      blames_pure _

/-- The loop has told the camera to program what lies before `pos`. -/
def WriteInv (respond : Response) (address size : BitVec 32) (data : Nat → BitVec 8)
    (trace : Trace) (vars : FlashVars) (next : Trace) : Prop :=
  vars.address = address + BitVec.ofNat 32 vars.pos ∧ vars.pos + vars.size = size.toNat ∧
    Moves respond (Programmed address data vars.pos) trace next

theorem flashWriteRound_keeps (bus : I2cBus) {respond : Response} {size : BitVec 32}
    {trace middle : Trace} {vars : FlashVars}
    (hinv : WriteInv respond address size data trace vars middle) (hsize : 0 < vars.size) :
    Ends (flashWriteRound bus data vars) middle
      (fun vars' next => WriteInv respond address size data trace vars' next ∧
        vars'.size < vars.size)
      (fun ret next => ret ≠ 0 ∧ Moves respond
        (fun c c' => ∃ n ≤ size.toNat, Programmed address data n c c') trace next) := by
  obtain ⟨haddress, htotal, hmoves⟩ := hinv
  obtain ⟨hpos, hle, -⟩ := writeLen_spec vars.address hsize
  refine ((flashWriteRound_programs bus respond vars haddress hsize middle).and
    (flashWriteRound_value bus data vars middle)).imp ?_ ?_
  · rintro _ next ⟨hround, rfl⟩
    refine ⟨⟨?_, ?_, hmoves.append hround fun c _ _ hprogrammed hstep => hstep c hprogrammed⟩, ?_⟩
    · change vars.address + _ = _
      rw [haddress, BitVec.add_assoc, ← BitVec.ofNat_add, ← haddress]
      rfl
    · change vars.pos + _ + (vars.size - _) = _
      omega
    · change vars.size - _ < _
      omega
  · rintro ret next ⟨⟨hret, hround⟩, -⟩
    refine ⟨hret, hmoves.append hround fun c _ _ hprogrammed hstep => ?_⟩
    rw [← htotal]
    exact hstep c hprogrammed

theorem flashWriteLoop_programs (bus : I2cBus) (respond : Response) (address size : BitVec 32)
    (data : Nat → BitVec 8) (trace : Trace) :
    Ends (whileM (fun vars => vars.size > 0) (flashWriteRound bus data) (size.toNat + 1)
        (FlashVars.start address size)) trace
      (fun out next => (∃ vars, out = some vars) ∧
        Moves respond (Programmed address data size.toNat) trace next)
      (fun ret next => ret ≠ 0 ∧ Moves respond
        (fun c c' => ∃ n ≤ size.toNat, Programmed address data n c c') trace next) := by
  have hstart : WriteInv respond address size data trace (FlashVars.start address size) trace :=
    ⟨(BitVec.add_zero address).symm, Nat.zero_add _, moves_refl (programmed_zero address data)⟩
  refine (ends_whileM FlashVars.size (fun vars middle hinv hcond =>
    flashWriteRound_keeps bus hinv (of_decide_eq_true hcond)) hstart (Nat.lt_succ_self _)).imp ?_
    fun _ _ => id
  rintro _ next ⟨vars, rfl, ⟨-, htotal, hmoves⟩, hcond⟩
  have hzero : vars.size = 0 := Nat.eq_zero_of_not_pos (of_decide_eq_false hcond)
  rw [hzero, Nat.add_zero] at htotal
  exact ⟨⟨vars, rfl⟩, htotal ▸ hmoves⟩

theorem flashWriteLoop_blames (bus : I2cBus) (address size : BitVec 32) (data : Nat → BitVec 8) :
    Blames (whileM (fun vars => vars.size > 0) (flashWriteRound bus data) (size.toNat + 1)
      (FlashVars.start address size)) := by
  intro trace
  let Grown (_ : FlashVars) (middle : Trace) : Prop := trace <+: middle
  have hround (vars : FlashVars) (middle : Trace) (hgrows : Grown vars middle)
      (hcond : decide (vars.size > 0) = true) :
      Ends (flashWriteRound bus data vars) middle
        (fun vars' next => Grown vars' next ∧ vars'.size < vars.size)
        fun _ next => Faulted trace next := by
    have hsize : 0 < vars.size := of_decide_eq_true hcond
    obtain ⟨hpos, hle, -⟩ := writeLen_spec vars.address hsize
    refine ((flashWriteRound_blames bus data vars hsize middle).and
      (flashWriteRound_value bus data vars middle)).imp ?_ ?_
    · rintro _ next ⟨hmore, rfl⟩
      refine ⟨hgrows.trans hmore, ?_⟩
      change vars.size - _ < _
      omega
    · rintro _ next ⟨hfaulted, -⟩
      exact hfaulted.before hgrows
  have hstart : Grown (FlashVars.start address size) trace := List.prefix_refl trace
  refine (ends_whileM FlashVars.size hround hstart (Nat.lt_succ_self _)).imp ?_ fun _ _ => id
  rintro _ next ⟨_, -, hgrows, -⟩
  exact hgrows

end Write

/-- What is programmed when `ret` is returned: a prefix of the range, and all of it when
`ret` is 0, by commands that are page-bound and do not overlap. -/
structure FlashWritten (address : BitVec 32) (data : Nat → BitVec 8) (size : Nat) (ret : Int)
    (programs : List Command) : Prop where
  inPage : ∀ p ∈ programs, p.InPage
  prefixed : ∃ n ≤ size, programs.flatMap Command.bytes = flashBytes address data n
  whole : ret = 0 → programs.flatMap Command.bytes = flashBytes address data size
  disjoint : ((programs.flatMap Command.bytes).map Prod.fst).Nodup

theorem Programmed.flashWritten {address : BitVec 32} {data : Nat → BitVec 8} {n size : Nat}
    {ret : Int} {c c' : Camera} (hprogrammed : Programmed address data n c c') (hn : n ≤ size)
    (hsize : size < 2 ^ 32) (hret : ret = 0 → n = size) :
    ∃ programs, c'.issued CMD_FLASH_WRITE = c.issued CMD_FLASH_WRITE ++ programs ∧
      FlashWritten address data size ret programs := by
  obtain ⟨programs, hissued, hpages, hbytes⟩ := hprogrammed
  refine ⟨programs, hissued, hpages, ⟨n, hn, hbytes⟩, fun hzero => ?_, ?_⟩
  · rw [hbytes, hret hzero]
  · rw [hbytes]
    exact flashBytes_nodup address data (by omega)

/-- It returns, fails only where an access does, and has told the camera what to program. -/
theorem zcamFlashWrite_written (bus : I2cBus) (index : BitVec 8) (respond : Response)
    (address size : BitVec 32) (data : Nat → BitVec 8) (trace : Trace) :
    ∃ ret events,
      zcamFlashWrite bus index address data size trace = some (ret, trace ++ events) ∧
      Released index events ∧
      (ret ≠ 0 → ∃ event ∈ events, event.Faults) ∧
      ∀ c : Camera, ∃ programs,
        (c.after respond events).issued CMD_FLASH_WRITE =
          c.issued CMD_FLASH_WRITE ++ programs ∧
        FlashWritten address data size.toNat ret programs := by
  obtain ⟨ret, events, hreturn, hreleased, hall⟩ := underLock_returns index trace
    (flashWriteLoop_programs bus respond address size data)
    fun c => ⟨0, Nat.zero_le _, programmed_zero address data c⟩
  refine ⟨ret, events, hreturn, hreleased, fun hret => ?_, fun c => ?_⟩
  · exact underLock_blames bus index (flashWriteLoop_blames bus address size data) hreturn hret
  have hc := hall c
  split_ifs at hc with hret
  · exact hc.flashWritten le_rfl size.isLt fun _ => rfl
  · obtain ⟨n, hn, hprogrammed⟩ := hc
    exact hprogrammed.flashWritten hn size.isLt fun hzero => absurd hzero hret

end ApolloContrib.Cam
