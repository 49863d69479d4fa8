import ApolloContrib.Library.Bits

namespace ApolloContrib.Can

open ApolloContrib.Library

/-! The CAN message codec of `basa_can.c`.  A ring slot is one `bcan_msg_t`; the
driver reads its first sixteen bytes as a `zcan_msg_t` and converts in place. -/

/-- The 32 bytes of a `bcan_msg_t` as the little-endian words the driver
accesses. The first four are the `zcan_msg_t` overlay. -/
structure Msg where
  word0 : BitVec 32
  word1 : BitVec 32
  word2 : BitVec 32
  word3 : BitVec 32
  tvSec : BitVec 64
  tvUsec : BitVec 64
deriving DecidableEq, Repr

def BCAN_EXTENDED_FRAME : BitVec 32 := 0x20000000#32
def CMSG_ID_EID_MASK : BitVec 32 := 0x3FFFF#32
def CMSG_ID_SID_MASK : BitVec 32 := 0x7FF#32
def CMSG_ID_SID_SHIFT : Nat := 21
def CMSG_LEN_MASK : BitVec 32 := 0xF#32
def CMSG_LEN_SHIFT : Nat := 28

namespace Msg

def bcanMsgId (m : Msg) : BitVec 32 := m.word0

def bcanMsgDatalen (m : Msg) : BitVec 8 := bitField m.word1 0 8

def bcanMsgData (m : Msg) (i : Fin 8) : BitVec 8 :=
  if i.val < 4 then bitField m.word2 (8 * i.val) 8
  else bitField m.word3 (8 * (i.val - 4)) 8

def setBcanMsgId (m : Msg) (id : BitVec 32) : Msg := { m with word0 := id }

def setBcanMsgDatalen (m : Msg) (len : BitVec 8) : Msg :=
  { m with word1 := setBitField m.word1 0 len }

def cmsgIdErtr (m : Msg) : BitVec 1 := bitField m.word0 0 1
def cmsgIdEid (m : Msg) : BitVec 18 := bitField m.word0 1 18
def cmsgIdIde (m : Msg) : BitVec 1 := bitField m.word0 19 1
def cmsgIdSrtr (m : Msg) : BitVec 1 := bitField m.word0 20 1
def cmsgIdSid (m : Msg) : BitVec 11 := bitField m.word0 21 11
def cmsgLenRsvd (m : Msg) : BitVec 28 := bitField m.word1 0 28
def cmsgLenLen (m : Msg) : BitVec 4 := bitField m.word1 28 4

def setCmsgIdErtr (m : Msg) (v : BitVec 1) : Msg :=
  { m with word0 := setBitField m.word0 0 v }
def setCmsgIdEid (m : Msg) (v : BitVec 18) : Msg :=
  { m with word0 := setBitField m.word0 1 v }
def setCmsgIdIde (m : Msg) (v : BitVec 1) : Msg :=
  { m with word0 := setBitField m.word0 19 v }
def setCmsgIdSrtr (m : Msg) (v : BitVec 1) : Msg :=
  { m with word0 := setBitField m.word0 20 v }
def setCmsgIdSid (m : Msg) (v : BitVec 11) : Msg :=
  { m with word0 := setBitField m.word0 21 v }

def isExtended (m : Msg) : Prop := m.bcanMsgId &&& BCAN_EXTENDED_FRAME ≠ 0

instance (m : Msg) : Decidable m.isExtended :=
  inferInstanceAs (Decidable (_ ≠ _))

end Msg

/-- `htonl` and `ntohl` on the little-endian host. -/
abbrev htonl (word : BitVec 32) : BitVec 32 := byteSwap word
abbrev ntohl (word : BitVec 32) : BitVec 32 := byteSwap word

def bcanToZcan (bmsg : Msg) : Msg :=
  let msgId := bmsg.bcanMsgId
  let cmsg :=
    if bmsg.isExtended then
      let cmsg := bmsg.setCmsgIdErtr 0
      let cmsg := cmsg.setCmsgIdEid ((msgId &&& CMSG_ID_EID_MASK).setWidth 18)
      let cmsg := cmsg.setCmsgIdIde 1
      let cmsg := cmsg.setCmsgIdSrtr 1
      cmsg.setCmsgIdSid
        (((msgId >>> fls CMSG_ID_EID_MASK) &&& CMSG_ID_SID_MASK).setWidth 11)
    else
      { bmsg with word0 := (msgId &&& CMSG_ID_SID_MASK) <<< CMSG_ID_SID_SHIFT }
  let cmsg :=
    { cmsg with
      word1 := (cmsg.bcanMsgDatalen.setWidth 32 &&& CMSG_LEN_MASK) <<<
        CMSG_LEN_SHIFT }
  let cmsg := { cmsg with word2 := htonl cmsg.word2 }
  { cmsg with word3 := htonl cmsg.word3 }

def zcanToBcan (cmsg : Msg) : Msg :=
  let msgId :=
    if cmsg.cmsgIdIde ≠ 0 then
      ((cmsg.cmsgIdSid.setWidth 32 <<< fls CMSG_ID_EID_MASK) |||
        cmsg.cmsgIdEid.setWidth 32) ||| BCAN_EXTENDED_FRAME
    else cmsg.word0 >>> CMSG_ID_SID_SHIFT
  let bmsg := cmsg.setBcanMsgId msgId
  let bmsg := bmsg.setBcanMsgDatalen ((bmsg.word1 >>> CMSG_LEN_SHIFT).setWidth 8)
  let bmsg := { bmsg with word2 := ntohl bmsg.word2 }
  { bmsg with word3 := ntohl bmsg.word3 }

end ApolloContrib.Can
