import Mathlib.Data.List.Basic

namespace ApolloContrib.Pandora

/-! `sys_readn` of `util.c`, over a connection that is cut into pieces and may break. -/

/-- What a `read` meets: some bytes, a signal or an error. -/
inductive ReadEvent where
  | bytes (piece : List (BitVec 8)) (nonempty : piece ≠ [])
  | eintr
  | error

/-- What the peer has sent, in pieces; behind the last there is the end of the file. -/
abbrev Connection := List ReadEvent

namespace Connection

def received : Connection → List (BitVec 8)
  | [] => []
  | .bytes piece _ :: conn => piece ++ received conn
  | .eintr :: conn => received conn
  | .error :: _ => []

def breaks : Connection → Bool
  | [] => false
  | .bytes _ _ :: conn => breaks conn
  | .eintr :: conn => breaks conn
  | .error :: _ => true

end Connection

/-- The `while` loop of `sys_readn`: the bytes that are read, nothing when -1 is returned. -/
def readLoop (nleft : Nat) : Connection → Option (List (BitVec 8)) × Connection
  | [] => (some [], [])
  | .eintr :: conn => if nleft = 0 then (some [], .eintr :: conn) else readLoop nleft conn
  | .error :: conn => if nleft = 0 then (some [], .error :: conn) else (none, conn)
  | .bytes piece nonempty :: conn =>
      if h : nleft < piece.length then
        (some (piece.take nleft),
          .bytes (piece.drop nleft) (by simpa using h) :: conn)
      else
        let (rest, conn) := readLoop (nleft - piece.length) conn
        (rest.map (piece ++ ·), conn)

/-- With an `int` that is not positive, nothing is read. -/
def sysReadn (n : Int) (conn : Connection) : Option (List (BitVec 8)) × Connection :=
  readLoop n.toNat conn

section Rules

variable {nleft : Nat} {conn : Connection}

theorem readLoop_whole (henough : nleft ≤ conn.received.length) :
    ∃ rest, readLoop nleft conn = (some (conn.received.take nleft), rest) ∧
      rest.received = conn.received.drop nleft ∧ rest.breaks = conn.breaks := by
  induction conn generalizing nleft with
  | nil =>
      obtain rfl : nleft = 0 := Nat.le_zero.mp henough
      exact ⟨[], rfl, rfl, rfl⟩
  | cons event conn ih =>
      cases event with
      | eintr =>
          rw [readLoop]
          split
          next hzero =>
            subst hzero
            exact ⟨_, rfl, rfl, rfl⟩
          next => exact ih henough
      | error =>
          obtain rfl : nleft = 0 := Nat.le_zero.mp henough
          exact ⟨_, rfl, rfl, rfl⟩
      | bytes piece nonempty =>
          rw [Connection.received, List.length_append] at henough
          rw [readLoop, Connection.received]
          split
          next hless =>
            have hle : nleft ≤ piece.length := Nat.le_of_lt hless
            rw [List.take_append_of_le_length hle, List.drop_append_of_le_length hle]
            exact ⟨_, rfl, rfl, rfl⟩
          next hmore =>
            have hrest : nleft - piece.length ≤ (Connection.received conn).length := by omega
            have hpiece : piece.length ≤ nleft := Nat.not_lt.mp hmore
            obtain ⟨rest, hread, hrest, hbreaks⟩ := ih hrest
            rw [hread, List.take_append, List.take_of_length_le hpiece, List.drop_append,
              List.drop_of_length_le hpiece]
            exact ⟨rest, rfl, hrest, hbreaks⟩

/-- Where they are not enough, an error is told, and the end of the file is not. -/
theorem readLoop_short (hshort : conn.received.length < nleft) :
    ∃ rest, readLoop nleft conn = (if conn.breaks then none else some conn.received, rest) ∧
      (conn.breaks = false → rest.received = [] ∧ rest.breaks = false) := by
  induction conn generalizing nleft with
  | nil => exact ⟨[], rfl, fun _ => ⟨rfl, rfl⟩⟩
  | cons event conn ih =>
      cases event with
      | eintr =>
          rw [readLoop, if_neg (Nat.ne_zero_of_lt hshort)]
          exact ih hshort
      | error =>
          rw [readLoop, if_neg (Nat.ne_zero_of_lt hshort)]
          exact ⟨conn, rfl, nofun⟩
      | bytes piece nonempty =>
          rw [Connection.received, List.length_append] at hshort
          rw [readLoop, Connection.received, dif_neg (by omega)]
          have hrest : (Connection.received conn).length < nleft - piece.length := by omega
          obtain ⟨rest, hread, hrest⟩ := ih hrest
          rw [hread]
          refine ⟨rest, ?_, hrest⟩
          rw [Connection.breaks]
          cases Connection.breaks conn <;> rfl

theorem sysReadn_natCast (n : Nat) (conn : Connection) : sysReadn n conn = readLoop n conn := rfl

theorem sysReadn_of_nonpos {n : Int} (hn : n ≤ 0) (conn : Connection) :
    ∃ rest, sysReadn n conn = (some [], rest) := by
  rw [sysReadn, Int.toNat_of_nonpos hn]
  obtain ⟨rest, hread, -⟩ := readLoop_whole (Nat.zero_le conn.received.length)
  exact ⟨rest, hread⟩

end Rules

end ApolloContrib.Pandora
