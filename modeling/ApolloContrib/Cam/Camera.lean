import ApolloContrib.Cam.HostCommand

namespace ApolloContrib.Cam

open ApolloContrib.Library

/-! What a camera sees of the accesses: its parameter pool, and the commands it gets. -/

structure Command where
  cmd : BitVec 16
  pool : Nat → BitVec 8

structure Camera where
  pool : Nat → BitVec 8
  cmdHi : BitVec 8
  commands : List Command

abbrev Response := BitVec 16 → (Nat → BitVec 8) → Nat → BitVec 8

theorem toNat_poolBase_add {i : Nat} (hi : i < REG_PARAM_POOL_SIZE) :
    (REG_PARAM_POOL_BASE + BitVec.ofNat 16 i).toNat = REG_PARAM_POOL_BASE.toNat + i := by
  unfold REG_PARAM_POOL_SIZE at hi
  rw [BitVec.toNat_add, BitVec.toNat_ofNat, Nat.mod_eq_of_lt (a := i) (by omega)]
  exact Nat.mod_eq_of_lt (by change 64512 + i < 65536; omega)

namespace Camera

def execute (respond : Response) (c : Camera) (cmd : BitVec 16) : Camera :=
  { c with
    pool := respond cmd c.pool
    commands := c.commands ++ [⟨cmd, c.pool⟩] }

/-- The low byte of the command register completes a command. -/
def take (respond : Response) (c : Camera) (addr : BitVec 16) (byte : BitVec 8) : Camera :=
  if REG_PARAM_POOL_BASE ≤ addr ∧ addr.toNat < REG_PARAM_POOL_BASE.toNat + REG_PARAM_POOL_SIZE then
    { c with pool := Function.update c.pool (addr.toNat - REG_PARAM_POOL_BASE.toNat) byte }
  else if addr = REG_COMMAND then { c with cmdHi := byte }
  else if addr = REG_COMMAND + 1 then c.execute respond (c.cmdHi ++ byte)
  else c

def see (respond : Response) (c : Camera) : CamEvent → Camera
  | .i2c ⟨_, true, addr, some byte⟩ ⟨ret, _, reached⟩ =>
      if ret = 0 ∨ reached then c.take respond addr byte else c
  | _ => c

def after (respond : Response) (c : Camera) (events : Trace) : Camera :=
  events.foldl (see respond) c

variable (respond : Response) (c : Camera)

@[simp] theorem after_nil : c.after respond [] = c := rfl

theorem after_append (events more : Trace) :
    c.after respond (events ++ more) = (c.after respond events).after respond more :=
  List.foldl_append

@[simp] theorem after_singleton (event : CamEvent) :
    c.after respond [event] = c.see respond event := rfl

theorem take_command (hi lo : BitVec 8) :
    (c.take respond REG_COMMAND hi).take respond (REG_COMMAND + 1) lo =
      { c with cmdHi := hi }.execute respond (hi ++ lo) := rfl

theorem take_pool {i : Nat} (hi : i < REG_PARAM_POOL_SIZE) (byte : BitVec 8) :
    c.take respond (REG_PARAM_POOL_BASE + BitVec.ofNat 16 i) byte =
      { c with pool := Function.update c.pool i byte } := by
  have haddr := toNat_poolBase_add hi
  unfold take
  rw [if_pos, haddr, Nat.add_sub_cancel_left]
  rw [BitVec.le_def, haddr]
  exact ⟨by omega, by omega⟩

def issued (c : Camera) (cmd : BitVec 16) : List Command :=
  c.commands.filter (·.cmd = cmd)

theorem issued_of_commands {c c' : Camera} (hcommands : c'.commands = c.commands)
    (cmd : BitVec 16) : c'.issued cmd = c.issued cmd :=
  congrArg (List.filter _) hcommands

def Same (c c' : Camera) : Prop :=
  c'.pool = c.pool ∧ c'.commands = c.commands

def Gets (respond : Response) (cmd : BitVec 16) (c c' : Camera) : Prop :=
  c'.pool = respond cmd c.pool ∧ c'.commands = c.commands ++ [⟨cmd, c.pool⟩]

theorem Gets.issued {respond : Response} {cmd : BitVec 16} {c c' : Camera}
    (hgets : Gets respond cmd c c') : c'.issued cmd = c.issued cmd ++ [⟨cmd, c.pool⟩] := by
  unfold Camera.issued
  rw [hgets.2, List.filter_append, List.filter_cons_of_pos (by simp), List.filter_nil]

/-- `size` parameters are set, from `start` on. -/
def Sets (start : Nat) (data : Nat → BitVec 8) (size : Nat) (c c' : Camera) : Prop :=
  c'.commands = c.commands ∧
    ∀ i, c'.pool i = if start ≤ i ∧ i < start + size then data (i - start) else c.pool i

def Polled (respond : Response) (c c' : Camera) : Prop :=
  (∀ cmd, cmd ≠ CMD_FLASH_STATUS → c'.issued cmd = c.issued cmd) ∧
    (respond CMD_FLASH_STATUS = id → c'.pool = c.pool)

theorem polled_of_same (c' : Camera) (hsame : Same c c') : Polled respond c c' :=
  ⟨fun _ _ => congrArg _ hsame.2, fun _ => hsame.1⟩

theorem polled_refl : Polled respond c c :=
  polled_of_same respond c c ⟨rfl, rfl⟩

theorem polled_of_gets (c' : Camera) (hgets : Gets respond CMD_FLASH_STATUS c c') :
    Polled respond c c' := by
  refine ⟨fun cmd hcmd => ?_, fun hstatus => ?_⟩
  · unfold issued
    rw [hgets.2, List.filter_append, List.filter_cons_of_neg (by simpa using hcmd.symm),
      List.filter_nil, List.append_nil]
  · rw [hgets.1, hstatus]
    rfl

theorem Polled.trans {c c' c'' : Camera} (hfirst : Polled respond c c')
    (hsecond : Polled respond c' c'') : Polled respond c c'' :=
  ⟨fun cmd hcmd => (hsecond.1 cmd hcmd).trans (hfirst.1 cmd hcmd),
    fun hstatus => (hsecond.2 hstatus).trans (hfirst.2 hstatus)⟩

end Camera

def CamEvent.IsI2c : CamEvent → Prop
  | .i2c .. => True
  | _ => False

/-- The driver gets from one trace to the other by accesses over I2C, which take every
camera as `R` says. -/
def Moves (respond : Response) (R : Camera → Camera → Prop) (trace next : Trace) : Prop :=
  ∃ events, next = trace ++ events ∧ (∀ event ∈ events, event.IsI2c) ∧
    ∀ c : Camera, R c (c.after respond events)

section Moves

variable {respond : Response} {R S T : Camera → Camera → Prop} {trace middle next : Trace}

theorem moves_refl (hrefl : ∀ c, R c c) : Moves respond R trace trace :=
  ⟨[], (List.append_nil _).symm, nofun, hrefl⟩

theorem Moves.imp (hmoves : Moves respond R trace next) (himp : ∀ c c', R c c' → S c c') :
    Moves respond S trace next := by
  obtain ⟨events, hnext, hi2c, hall⟩ := hmoves
  exact ⟨events, hnext, hi2c, fun c => himp _ _ (hall c)⟩

theorem Moves.append (hfirst : Moves respond R trace middle)
    (hsecond : Moves respond S middle next) (hcomp : ∀ c c' c'', R c c' → S c' c'' → T c c'') :
    Moves respond T trace next := by
  obtain ⟨events, rfl, hi2c, hall⟩ := hfirst
  obtain ⟨more, rfl, hi2c', hall'⟩ := hsecond
  refine ⟨events ++ more, List.append_assoc _ _ _, ?_, ?_⟩
  · intro event hevent
    rcases List.mem_append.mp hevent with hold | hnew
    · exact hi2c event hold
    · exact hi2c' event hnew
  · intro c
    rw [Camera.after_append]
    exact hcomp _ _ _ (hall c) (hall' _)

end Moves

/-- The action moves the camera by `R` when it succeeds, and by `F` when it returns an
error. -/
def Drives {α : Type} (respond : Response) (action : CamM α) (R F : Camera → Camera → Prop) :
    Prop :=
  ∀ trace, Ends action trace (fun _ => Moves respond R trace)
    (fun ret next => ret ≠ 0 ∧ Moves respond F trace next)

section Drives

variable {α β : Type} {respond : Response} {action : CamM α} {next : α → CamM β}
  {R S F G T H : Camera → Camera → Prop}

theorem drives_pure (value : α) (hrefl : ∀ c, R c c) : Drives respond (pure value) R F :=
  fun _ => moves_refl hrefl

theorem drives_throw {ret : Int} (hret : ret ≠ 0) (hrefl : ∀ c, F c c) :
    Drives respond (throw ret : CamM α) R F :=
  fun _ => ⟨hret, moves_refl hrefl⟩

theorem Drives.imp (hdrives : Drives respond action R F) (hdone : ∀ c c', R c c' → S c c')
    (hfailed : ∀ c c', F c c' → G c c') : Drives respond action S G :=
  fun trace => (hdrives trace).imp (fun _ _ hmoves => hmoves.imp hdone)
    fun _ _ ⟨hret, hmoves⟩ => ⟨hret, hmoves.imp hfailed⟩

theorem Drives.bind (hfirst : Drives respond action R F)
    (hnext : ∀ value, Drives respond (next value) S G)
    (hdone : ∀ c c' c'', R c c' → S c' c'' → T c c'')
    (hearly : ∀ c c', F c c' → H c c')
    (hlate : ∀ c c' c'', R c c' → G c' c'' → H c c'') :
    Drives respond (action >>= next) T H := by
  intro trace
  refine (hfirst trace).bind ?_ ?_
  · intro value middle hmoves
    refine (hnext value middle).imp ?_ ?_
    · intro _ last hmore
      exact hmoves.append hmore hdone
    · rintro ret last ⟨hret, hmore⟩
      exact ⟨hret, hmoves.append hmore hlate⟩
  · rintro ret middle ⟨hret, hmoves⟩
    exact ⟨hret, hmoves.imp hearly⟩

theorem Drives.after_unseen (hfirst : Drives respond action Eq Eq)
    (hnext : ∀ value, Drives respond (next value) S G) (hrefl : ∀ c, G c c) :
    Drives respond (action >>= next) S G :=
  hfirst.bind hnext (fun _ _ _ heq => heq ▸ id) (fun c _ heq => heq ▸ hrefl c)
    fun _ _ _ heq => heq ▸ id

theorem Drives.then_unseen (hfirst : Drives respond action R F)
    (hnext : ∀ value, Drives respond (next value) Eq Eq) (hdone : ∀ c c', R c c' → F c c') :
    Drives respond (action >>= next) R F :=
  hfirst.bind hnext (fun _ _ _ hR heq => heq ▸ hR) (fun _ _ => id)
    fun _ _ _ hR heq => heq ▸ hdone _ _ hR

end Drives

section Accesses

variable {bus : I2cBus} (respond : Response)

theorem zdevI2c_ends (acc : I2cAcc) (trace : Trace) :
    Ends (zdevI2c bus acc) trace
      (fun data next => (bus trace acc).ret = 0 ∧ data = (bus trace acc).data ∧
        next = trace ++ [.i2c acc (bus trace acc)])
      (fun ret next => (bus trace acc).ret ≠ 0 ∧ ret = (bus trace acc).ret ∧
        next = trace ++ [.i2c acc (bus trace acc)]) := by
  unfold Ends zdevI2c
  dsimp only
  split
  next hresult =>
    split at hresult
    next => cases hresult
    next hret =>
      cases hresult
      exact ⟨not_not.mp hret, rfl, rfl⟩
  next hresult =>
    split at hresult
    next hret =>
      cases hresult
      exact ⟨hret, rfl, rfl⟩
    next => cases hresult

theorem moves_i2c {R : Camera → Camera → Prop} {acc : I2cAcc} {reply : I2cReply} {trace : Trace}
    (hsee : ∀ c : Camera, R c (c.see respond (.i2c acc reply))) :
    Moves respond R trace (trace ++ [.i2c acc reply]) := by
  refine ⟨_, rfl, ?_, hsee⟩
  intro event hevent
  rw [List.mem_singleton.mp hevent]
  trivial

theorem zdevI2c_unseen (acc : I2cAcc) (hunseen : acc.i2cAddr16 = false ∨ acc.i2cData = none) :
    Drives respond (zdevI2c bus acc) Eq Eq := by
  have hsee (reply : I2cReply) (c : Camera) : c = c.see respond (.i2c acc reply) := by
    obtain ⟨_, _ | _, _, _ | _⟩ := acc <;> first | rfl | simp at hunseen
  intro trace
  refine (zdevI2c_ends acc trace).imp ?_ ?_
  · rintro _ _ ⟨-, -, rfl⟩
    exact moves_i2c respond (hsee _)
  · rintro _ _ ⟨hret, rfl, rfl⟩
    exact ⟨hret, moves_i2c respond (hsee _)⟩

theorem zcamI2cInit_unseen (index : BitVec 8) :
    Drives respond (zcamI2cInit bus index) Eq Eq :=
  (zdevI2c_unseen respond _ (Or.inl rfl)).after_unseen
    (fun _ => (zdevI2c_unseen respond _ (Or.inl rfl)).then_unseen
      (fun _ => drives_pure () fun _ => rfl) fun _ _ => id) fun _ => rfl

theorem zcamI2cRead8_unseen (addr : BitVec 16) :
    Drives respond (zcamI2cRead8 bus addr) Eq Eq :=
  zdevI2c_unseen respond _ (Or.inr rfl)

theorem zcamI2cRead16_unseen (addr : BitVec 16) :
    Drives respond (zcamI2cRead16 bus addr) Eq Eq :=
  (zcamI2cRead8_unseen respond addr).after_unseen
    (fun _ => (zcamI2cRead8_unseen respond (addr + 1)).then_unseen
      (fun _ => drives_pure _ fun _ => rfl) fun _ _ => id) fun _ => rfl

theorem zcamI2cWrite8_takes (addr : BitVec 16) (data : BitVec 8) :
    Drives respond (zcamI2cWrite8 bus addr data) (fun c c' => c' = c.take respond addr data)
      (fun c c' => c' = c ∨ c' = c.take respond addr data) := by
  intro trace
  refine (zdevI2c_ends _ trace).bind ?_ ?_
  · rintro _ _ ⟨hret, -, rfl⟩
    exact ends_pure.mpr (moves_i2c respond fun c => if_pos (Or.inl hret))
  · rintro _ _ ⟨hret, rfl, rfl⟩
    exact ⟨hret, moves_i2c respond fun c => (ite_eq_or_eq _ _ _).symm⟩

theorem zcamI2cWrite16_gets (cmd : BitVec 16) :
    Drives respond (zcamI2cWrite16 bus REG_COMMAND cmd) (Camera.Gets respond cmd)
      (fun c c' => Camera.Same c c' ∨ Camera.Gets respond cmd c c') := by
  have hgets (c : Camera) : Camera.Gets respond cmd c
      ((c.take respond REG_COMMAND (cmd.extractLsb' 8 8)).take respond (REG_COMMAND + 1)
        (cmd.extractLsb' 0 8)) := by
    have hcmd : cmd.extractLsb' 8 8 ++ cmd.extractLsb' 0 8 = cmd :=
      BitVec.extractLsb'_append_extractLsb'
    rw [Camera.take_command, hcmd]
    exact ⟨rfl, rfl⟩
  refine (zcamI2cWrite8_takes respond _ _).bind (fun _ => zcamI2cWrite8_takes respond _ _) ?_ ?_ ?_
  · rintro c _ _ rfl rfl
    exact hgets c
  · rintro c _ (rfl | rfl)
    · exact Or.inl ⟨rfl, rfl⟩
    · exact Or.inl ⟨rfl, rfl⟩
  · rintro c _ _ rfl (rfl | rfl)
    · exact Or.inl ⟨rfl, rfl⟩
    · exact Or.inr (hgets c)

theorem waitDoorbell_unseen (left : Nat) (data : BitVec 16) :
    Drives respond (waitDoorbell bus left data) Eq Eq := by
  induction left generalizing data with
  | zero => exact drives_pure data fun _ => rfl
  | succ left ih =>
      rw [waitDoorbell]
      split
      · exact (zcamI2cRead16_unseen respond _).after_unseen ih fun _ => rfl
      · exact drives_pure data fun _ => rfl

theorem checkResponse_unseen (cmd data : BitVec 16) :
    Drives respond (checkResponse cmd data) Eq Eq := by
  unfold checkResponse
  split_ifs
  · exact drives_throw (by decide) fun _ => rfl
  · exact drives_throw (by decide) fun _ => rfl
  · exact drives_throw (by decide) fun _ => rfl
  · exact drives_pure () fun _ => rfl

theorem zcamCommand_gets (cmd : BitVec 16) :
    Drives respond (zcamCommand bus cmd) (Camera.Gets respond cmd)
      (fun c c' => Camera.Same c c' ∨ Camera.Gets respond cmd c c') := by
  refine (zcamI2cRead16_unseen respond _).after_unseen (fun data => ?_)
    fun _ => Or.inl ⟨rfl, rfl⟩
  split
  · exact drives_throw (by decide) fun _ => Or.inl ⟨rfl, rfl⟩
  · refine (zcamI2cWrite16_gets respond cmd).then_unseen (fun _ => ?_) fun _ _ => Or.inr
    exact (waitDoorbell_unseen respond _ _).after_unseen (checkResponse_unseen respond cmd)
      fun _ => rfl

theorem drives_forLoop {body : Nat → CamM Unit} {left : Nat} {R : Nat → Camera → Camera → Prop}
    {F : Camera → Camera → Prop} {Step Fail : Nat → Camera → Camera → Prop}
    (hround : ∀ i < left, Drives respond (body i) (Step i) (Fail i))
    (hrefl : ∀ c, R 0 c c)
    (hstep : ∀ i < left, ∀ c c' c'', R i c c' → Step i c' c'' → R (i + 1) c c'')
    (hfailed : ∀ i < left, ∀ c c' c'', R i c c' → Fail i c' c'' → F c c'') :
    Drives respond (forLoop body left 0) (R left) F := by
  intro trace
  let Inv (i : Nat) := Moves respond (R i) trace
  suffices hloop : Ends (forLoop body left 0) trace (fun _ => Inv (0 + left))
      (fun ret next => ret ≠ 0 ∧ Moves respond F trace next) by
    rwa [Nat.zero_add] at hloop
  refine ends_forLoop ?_ (moves_refl hrefl)
  intro i middle _ hi hmoves
  rw [Nat.zero_add] at hi
  refine (hround i hi middle).imp ?_ ?_
  · intro _ next hmore
    exact hmoves.append hmore (hstep i hi)
  · rintro ret next ⟨hret, hmore⟩
    exact ⟨hret, hmoves.append hmore (hfailed i hi)⟩

theorem zcamParamsWrite_sets (start : BitVec 8) (data : Nat → BitVec 8) (size : BitVec 8) :
    Drives respond (zcamParamsWrite bus start data size)
      (Camera.Sets start.toNat data size.toNat) (fun c c' => c'.commands = c.commands) := by
  unfold zcamParamsWrite
  split
  · exact drives_throw (by decide) fun _ => rfl
  next hfits =>
    refine drives_forLoop respond (R := Camera.Sets start.toNat data)
      (fun i _ => zcamI2cWrite8_takes respond (poolAddr start i) (data i)) ?_ ?_ ?_
    · intro c
      exact ⟨rfl, fun i => by rw [if_neg (by omega)]⟩
    · rintro i hi c c' _ ⟨hcommands, hpool⟩ rfl
      rw [poolAddr, Camera.take_pool respond c' (by omega)]
      refine ⟨hcommands, fun j => ?_⟩
      change Function.update c'.pool (start.toNat + i) (data i) j = _
      rw [Function.update_apply, hpool]
      split_ifs <;> first | rfl | omega | skip
      subst j
      rw [Nat.add_sub_cancel_left]
    · rintro i hi c c' _ ⟨hcommands, -⟩ (rfl | rfl)
      · exact hcommands
      · rw [poolAddr, Camera.take_pool respond c' (by omega)]
        exact hcommands

theorem flashStatusLoop_polled (left : Nat) :
    Drives respond (flashStatusLoop bus left) (Camera.Polled respond) (Camera.Polled respond) := by
  induction left with
  | zero => exact drives_throw (by decide) (Camera.polled_refl respond)
  | succ left ih =>
      have hcommand : Drives respond (zcamCommand bus CMD_FLASH_STATUS)
          (Camera.Polled respond) (Camera.Polled respond) :=
        (zcamCommand_gets respond CMD_FLASH_STATUS).imp (Camera.polled_of_gets respond)
          fun c c' hc =>
            hc.elim (Camera.polled_of_same respond c c') (Camera.polled_of_gets respond c c')
      intro trace
      refine (hcommand trace).tryCatch fun ret middle hfirst => ?_
      split
      · exact hfirst
      · refine (ih middle).imp ?_ ?_
        · intro _ last hrest
          exact hfirst.2.append hrest fun _ _ _ => Camera.Polled.trans respond
        · rintro _ last ⟨hret, hrest⟩
          exact ⟨hret, hfirst.2.append hrest fun _ _ _ => Camera.Polled.trans respond⟩

theorem zcamFlashStatus_polled :
    Drives respond (zcamFlashStatus bus) (Camera.Polled respond) (Camera.Polled respond) :=
  flashStatusLoop_polled respond ZCAM_WAIT_RETRY

end Accesses

/-- The access fails, or the command register does not read as 0. -/
def CamEvent.Faults : CamEvent → Prop
  | .i2c acc reply =>
      reply.ret ≠ 0 ∨
        (acc.i2cAddr = REG_COMMAND ∨ acc.i2cAddr = REG_COMMAND + 1) ∧ acc.i2cData = none ∧
          reply.data ≠ 0
  | _ => False

def Faulted (trace next : Trace) : Prop :=
  ∃ events, next = trace ++ events ∧ ∃ event ∈ events, event.Faults

def Blames {α : Type} (action : CamM α) : Prop :=
  ∀ trace, Ends action trace (fun _ next => trace <+: next) fun _ next => Faulted trace next

section Blames

variable {α β : Type} {action : CamM α} {next : α → CamM β} {trace middle last : Trace}

theorem Faulted.grow (hfaulted : Faulted trace middle) (hgrows : middle <+: last) :
    Faulted trace last := by
  obtain ⟨events, rfl, event, hevent, hfaults⟩ := hfaulted
  obtain ⟨more, rfl⟩ := hgrows
  exact ⟨events ++ more, List.append_assoc _ _ _, event, List.mem_append_left _ hevent, hfaults⟩

theorem Faulted.before (hfaulted : Faulted middle last) (hgrows : trace <+: middle) :
    Faulted trace last := by
  obtain ⟨events, rfl, event, hevent, hfaults⟩ := hfaulted
  obtain ⟨more, rfl⟩ := hgrows
  exact ⟨more ++ events, List.append_assoc _ _ _, event, List.mem_append_right _ hevent, hfaults⟩

theorem Faulted.grows (hfaulted : Faulted trace last) : trace <+: last := by
  obtain ⟨events, rfl, -⟩ := hfaulted
  exact List.prefix_append trace events

theorem faulted_concat {event : CamEvent} (hfaults : event.Faults) :
    Faulted trace (trace ++ [event]) :=
  ⟨[event], rfl, event, List.mem_singleton_self event, hfaults⟩

theorem blames_pure (value : α) : Blames (pure value : CamM α) :=
  fun trace => List.prefix_refl trace

theorem Blames.bind (hfirst : Blames action) (hnext : ∀ value, Blames (next value)) :
    Blames (action >>= next) := by
  intro trace
  refine (hfirst trace).bind (fun value middle hgrows => ?_) fun _ _ => id
  exact (hnext value middle).imp (fun _ _ => hgrows.trans) fun _ _ hfaulted =>
    hfaulted.before hgrows

theorem Ends.bind_faulted (bad : α → Prop) {next : α → CamM β}
    (hfirst : Ends action trace
      (fun value middle => trace <+: middle ∧ (bad value → Faulted trace middle))
      fun _ middle => Faulted trace middle)
    (hgood : ∀ value, ¬ bad value → Blames (next value))
    (hbad : ∀ value middle, bad value → Ends (next value) middle
      (fun _ last => middle <+: last) fun _ last => middle <+: last) :
    Ends (action >>= next) trace (fun _ last => trace <+: last)
      fun _ last => Faulted trace last := by
  refine hfirst.bind ?_ fun _ _ => id
  rintro value middle ⟨hgrows, hfaulted⟩
  by_cases hvalue : bad value
  · exact (hbad value middle hvalue).imp (fun _ _ => hgrows.trans) fun _ _ hlast =>
      (hfaulted hvalue).grow hlast
  · exact (hgood value hvalue middle).imp (fun _ _ => hgrows.trans) fun _ _ hlast =>
      hlast.before hgrows

variable (bus : I2cBus)

theorem zdevI2c_blames (acc : I2cAcc) : Blames (zdevI2c bus acc) := by
  intro trace
  refine (zdevI2c_ends acc trace).imp ?_ ?_
  · rintro _ _ ⟨-, -, rfl⟩
    exact List.prefix_append _ _
  · rintro _ _ ⟨hret, -, rfl⟩
    exact faulted_concat (.inl hret)

theorem zcamI2cInit_blames (index : BitVec 8) : Blames (zcamI2cInit bus index) :=
  (zdevI2c_blames bus _).bind fun _ => (zdevI2c_blames bus _).bind fun _ => blames_pure ()

theorem zcamI2cWrite8_blames (addr : BitVec 16) (data : BitVec 8) :
    Blames (zcamI2cWrite8 bus addr data) :=
  (zdevI2c_blames bus _).bind fun _ => blames_pure ()

theorem zcamParamsWrite_blames (start : BitVec 8) (data : Nat → BitVec 8) (size : BitVec 8)
    (hfits : start.toNat + size.toNat ≤ REG_PARAM_POOL_SIZE) :
    Blames (zcamParamsWrite bus start data size) := by
  intro trace
  unfold zcamParamsWrite
  rw [if_neg (Nat.not_lt.mpr hfits)]
  let Grown (_ : Nat) (middle : Trace) : Prop := trace <+: middle
  have hround (i : Nat) (middle : Trace) (hgrows : Grown i middle) :
      Ends (zcamI2cWrite8 bus (poolAddr start i) (data i)) middle (fun _ => Grown (i + 1))
        fun _ last => Faulted trace last :=
    (zcamI2cWrite8_blames bus _ _ middle).imp (fun _ _ => hgrows.trans)
      fun _ _ hfaulted => hfaulted.before hgrows
  have hstart : Grown 0 trace := List.prefix_refl trace
  exact ends_forLoop (fun i middle _ _ => hround i middle) hstart

theorem zcamI2cRead8_command {addr : BitVec 16} (haddr : addr = REG_COMMAND ∨
      addr = REG_COMMAND + 1) (trace : Trace) :
    Ends (zcamI2cRead8 bus addr) trace
      (fun data next => trace <+: next ∧ (data ≠ 0 → Faulted trace next))
      fun _ next => Faulted trace next := by
  refine (zdevI2c_ends _ trace).imp ?_ ?_
  · rintro _ _ ⟨-, rfl, rfl⟩
    exact ⟨List.prefix_append _ _, fun hdata => faulted_concat (.inr ⟨haddr, rfl, hdata⟩)⟩
  · rintro _ _ ⟨hret, -, rfl⟩
    exact faulted_concat (.inl hret)

theorem zcamI2cRead16_command (trace : Trace) :
    Ends (zcamI2cRead16 bus REG_COMMAND) trace
      (fun data next => trace <+: next ∧ (data ≠ 0 → Faulted trace next))
      fun _ next => Faulted trace next := by
  refine (zcamI2cRead8_command bus (.inl rfl) trace).bind ?_ fun _ _ => id
  rintro hi middle ⟨hgrows, hhigh⟩
  refine (zcamI2cRead8_command bus (.inr rfl) middle).bind ?_ fun _ _ hfaulted =>
    hfaulted.before hgrows
  rintro lo last ⟨hgrows', hlow⟩
  refine ⟨hgrows.trans hgrows', fun hdata => ?_⟩
  by_cases hzero : hi = 0
  · refine (hlow fun hlowZero => hdata ?_).before hgrows
    rw [hzero, hlowZero]
    rfl
  · exact (hhigh hzero).grow hgrows'

theorem waitDoorbell_faulted (left : Nat) (data : BitVec 16) (trace : Trace) :
    Ends (waitDoorbell bus left data) trace
      (fun out next => trace <+: next ∧ (out ≠ 0 → Faulted trace next ∨
        (out = data ∧ (left = 0 ∨ data &&& CMD_DOORBELL = 0))))
      fun _ next => Faulted trace next := by
  induction left generalizing data trace with
  | zero => exact ⟨List.prefix_refl trace, fun _ => .inr ⟨rfl, .inl rfl⟩⟩
  | succ left ih =>
      rw [waitDoorbell]
      split
      · refine (zcamI2cRead16_command bus trace).bind ?_ fun _ _ => id
        rintro data' middle ⟨hgrows, hread⟩
        refine (ih data' middle).imp ?_ fun _ _ hfaulted => hfaulted.before hgrows
        rintro out last ⟨hgrows', hout⟩
        refine ⟨hgrows.trans hgrows', fun hdata => .inl ?_⟩
        obtain hlater | ⟨rfl, -⟩ := hout hdata
        · exact hlater.before hgrows
        · exact (hread hdata).grow hgrows'
      next hclear => exact ⟨List.prefix_refl trace, fun _ => .inr ⟨rfl, .inr (not_not.mp hclear)⟩⟩

theorem checkResponse_zero (cmd : BitVec 16) : checkResponse cmd 0 = pure () := by
  unfold checkResponse
  rw [if_neg (by decide), if_neg (fun hbusy => absurd hbusy.2 (by decide)), if_neg (by decide)]

theorem checkResponse_grows (cmd data : BitVec 16) (trace : Trace) :
    Ends (checkResponse cmd data) trace (fun _ last => trace <+: last)
      fun _ last => trace <+: last := by
  unfold checkResponse
  split_ifs <;> exact List.prefix_refl trace

theorem sendCommand_blames (cmd : BitVec 16) :
    Blames (do
      zcamI2cWrite16 bus REG_COMMAND cmd
      let data ← waitDoorbell bus ZCAM_WAIT_RETRY (-1)
      checkResponse cmd data) := by
  refine ((zcamI2cWrite8_blames bus _ _).bind fun _ => zcamI2cWrite8_blames bus _ _).bind ?_
  intro _ middle
  refine Ends.bind_faulted (· ≠ 0) ((waitDoorbell_faulted bus _ _ middle).imp ?_
    fun _ _ => id) (fun data hzero => ?_) fun data last _ => checkResponse_grows cmd data last
  · rintro out last ⟨hgrows, hout⟩
    refine ⟨hgrows, fun hdata => (hout hdata).resolve_right ?_⟩
    rintro ⟨-, hleft | hdoorbell⟩
    · cases hleft
    · exact absurd hdoorbell (by decide)
  · obtain rfl : data = 0 := not_not.mp hzero
    rw [checkResponse_zero]
    exact blames_pure ()

theorem zcamCommand_blames (cmd : BitVec 16) : Blames (zcamCommand bus cmd) := by
  intro trace
  refine Ends.bind_faulted (· &&& CMD_DOORBELL ≠ 0)
    ((zcamI2cRead16_command bus trace).imp ?_ fun _ _ => id) (fun data hclear => ?_) ?_
  · rintro data middle ⟨hgrows, hread⟩
    refine ⟨hgrows, fun hdoorbell => hread ?_⟩
    rintro rfl
    exact hdoorbell (BitVec.zero_and)
  · rw [if_neg hclear]
    exact sendCommand_blames bus cmd
  · intro data middle hdoorbell
    rw [if_pos hdoorbell]
    exact List.prefix_refl middle

theorem flashStatusLoop_faulted (left : Nat) (trace : Trace) :
    Ends (flashStatusLoop bus left) trace (fun _ next => trace <+: next)
      fun _ next => trace <+: next ∧ (left ≠ 0 → Faulted trace next) := by
  induction left generalizing trace with
  | zero => exact ⟨List.prefix_refl trace, fun hleft => absurd rfl hleft⟩
  | succ left ih =>
      refine (zcamCommand_blames bus CMD_FLASH_STATUS trace).tryCatch
        fun ret middle hfaulted => ?_
      split
      · exact ⟨hfaulted.grows, fun _ => hfaulted⟩
      · refine (ih middle).imp (fun _ _ => hfaulted.grows.trans) ?_
        rintro _ last ⟨hgrows, -⟩
        exact ⟨hfaulted.grows.trans hgrows, fun _ => hfaulted.grow hgrows⟩

theorem zcamFlashStatus_blames : Blames (zcamFlashStatus bus) := fun trace =>
  (flashStatusLoop_faulted bus ZCAM_WAIT_RETRY trace).imp (fun _ _ => id)
    fun _ _ hlast => hlast.2 (by decide)

/-- A value other than 0 comes from an access, be it of the set-up or of the body. -/
theorem underLock_blames {Vars : Type} (index : BitVec 8) {body : CamM (Option Vars)}
    (hbody : Blames body) {ret : Int} {events : Trace}
    (hreturn : underLock bus index body trace = some (ret, trace ++ events)) (hret : ret ≠ 0) :
    ∃ event ∈ events, event.Faults := by
  have haction := (zcamI2cInit_blames bus index).bind (fun _ => hbody) (trace ++ [.lock])
  unfold Ends at haction
  unfold underLock at hreturn
  dsimp only at hreturn
  cases hresult : (zcamI2cInit bus index >>= fun _ => body) (trace ++ [.lock]) with
  | ok out next =>
      rw [hresult] at hreturn
      cases out with
      | none => cases hreturn
      | some vars =>
          obtain ⟨hzero, -⟩ := Prod.mk.inj (Option.some.inj hreturn)
          exact absurd hzero.symm hret
  | error error next =>
      rw [hresult] at haction hreturn
      obtain ⟨-, hlast⟩ := Prod.mk.inj (Option.some.inj hreturn)
      obtain ⟨middle, rfl, event, hevent, hfaults⟩ := haction
      unfold zcamI2cFini at hlast
      dsimp only at hlast
      simp only [List.append_assoc, List.append_cancel_left_eq] at hlast
      refine ⟨event, ?_, hfaults⟩
      rw [← hlast]
      simp [hevent]

end Blames

/-- The lock is taken first and released last, just after the aliases are cleared. -/
def Released (index : BitVec 8) (events : Trace) : Prop :=
  ∃ middle reply reply', (∀ event ∈ middle, CamEvent.IsI2c event) ∧
    events = .lock :: middle ++ [.i2c (aliasAcc index 0x10 0) reply,
      .i2c (aliasAcc index 0x08 0) reply', .unlock]

section Frame

variable {Vars : Type} {bus : I2cBus} {respond : Response} {index : BitVec 8}
  {R F : Camera → Camera → Prop} {trace next : Trace}

theorem moves_underLock (bus : I2cBus) (index : BitVec 8)
    (hmoves : Moves respond R (trace ++ [.lock]) next) :
    ∃ events, zcamI2cFini bus index next ++ [.unlock] = trace ++ events ∧
      Released index events ∧ ∀ c : Camera, R c (c.after respond events) := by
  obtain ⟨middle, rfl, hi2c, hall⟩ := hmoves
  unfold zcamI2cFini
  dsimp only
  generalize hreply : bus _ (aliasAcc index 0x10 0) = reply
  generalize hreply' : bus _ (aliasAcc index 0x08 0) = reply'
  refine ⟨.lock :: middle ++ [.i2c (aliasAcc index 0x10 0) reply,
    .i2c (aliasAcc index 0x08 0) reply', .unlock], by simp, ⟨middle, reply, reply', hi2c, rfl⟩,
    fun c => ?_⟩
  rw [Camera.after_append]
  exact hall c

theorem underLock_returns (index : BitVec 8) (trace : Trace) {body : CamM (Option Vars)}
    (hbody : ∀ trace, Ends body trace
      (fun out next => (∃ vars, out = some vars) ∧ Moves respond R trace next)
      (fun ret next => ret ≠ 0 ∧ Moves respond F trace next))
    (hrefl : ∀ c, F c c) :
    ∃ ret events, underLock bus index body trace = some (ret, trace ++ events) ∧
      Released index events ∧
      ∀ c : Camera,
        if ret = 0 then R c (c.after respond events) else F c (c.after respond events) := by
  have haction : Ends (zcamI2cInit bus index >>= fun _ => body) (trace ++ [.lock])
      (fun out next => (∃ vars, out = some vars) ∧ Moves respond R (trace ++ [.lock]) next)
      (fun ret next => ret ≠ 0 ∧ Moves respond F (trace ++ [.lock]) next) := by
    refine (zcamI2cInit_unseen respond index _).bind ?_ ?_
    · intro _ middle hinit
      refine (hbody middle).imp ?_ ?_
      · rintro _ next ⟨hsome, hmoves⟩
        exact ⟨hsome, hinit.append hmoves fun _ _ _ heq => heq ▸ id⟩
      · rintro _ next ⟨hret, hmoves⟩
        exact ⟨hret, hinit.append hmoves fun _ _ _ heq => heq ▸ id⟩
    · rintro _ next ⟨hret, hinit⟩
      exact ⟨hret, hinit.imp fun c _ heq => heq ▸ hrefl c⟩
  unfold Ends at haction
  unfold underLock
  dsimp only
  cases hresult : (zcamI2cInit bus index >>= fun _ => body) (trace ++ [.lock]) with
  | ok out next =>
      rw [hresult] at haction
      obtain ⟨⟨vars, rfl⟩, hmoves⟩ := haction
      obtain ⟨events, htrace, hreleased, hall⟩ := moves_underLock bus index hmoves
      exact ⟨0, events, congrArg (fun trace => some (0, trace)) htrace, hreleased, hall⟩
  | error ret next =>
      rw [hresult] at haction
      obtain ⟨hret, hmoves⟩ := haction
      obtain ⟨events, htrace, hreleased, hall⟩ := moves_underLock bus index hmoves
      refine ⟨ret, events, congrArg (fun trace => some (ret, trace)) htrace, hreleased,
        fun c => ?_⟩
      rw [if_neg hret]
      exact hall c

theorem underLock_zero {body : CamM (Option Vars)} {done : Trace → Option Vars → Trace → Prop}
    {last : Trace} (hreturn : underLock bus index body trace = some (0, last))
    (hbody : ∀ trace, Ends body trace (done trace) (fun ret _ => ret ≠ 0)) :
    ∃ first vars next, Moves respond Eq (trace ++ [.lock]) first ∧
      done first (some vars) next ∧ last = zcamI2cFini bus index next ++ [.unlock] := by
  have haction : Ends (zcamI2cInit bus index >>= fun _ => body) (trace ++ [.lock])
      (fun out next => ∃ first, Moves respond Eq (trace ++ [.lock]) first ∧ done first out next)
      (fun ret _ => ret ≠ 0) := by
    refine (zcamI2cInit_unseen respond index _).bind (fun _ first hinit => ?_)
      fun _ _ hfailed => hfailed.1
    exact (hbody first).imp (fun _ _ hdone => ⟨first, hinit, hdone⟩) fun _ _ => id
  unfold Ends at haction
  unfold underLock at hreturn
  dsimp only at hreturn
  cases hresult : (zcamI2cInit bus index >>= fun _ => body) (trace ++ [.lock]) with
  | ok out next =>
      rw [hresult] at haction hreturn
      obtain ⟨first, hinit, hdone⟩ := haction
      cases out with
      | none => cases hreturn
      | some vars =>
          cases hreturn
          exact ⟨first, vars, next, hinit, hdone, rfl⟩
  | error ret next =>
      rw [hresult] at haction hreturn
      cases hreturn
      exact absurd rfl haction

end Frame

end ApolloContrib.Cam
