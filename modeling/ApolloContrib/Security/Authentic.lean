import ApolloContrib.Security.Verify

namespace ApolloContrib.Security

/-! When `VerifyAndStrip` accepts only what is authentic. -/

variable {Key ToBeSigned : Type} (crypto : Crypto Key ToBeSigned)
variable (rootKey : Option Key)

/-- The to-be-signed part of the certificate string verifies under the root key. -/
structure RootVerified (ca : OctetString) (cert : Certificate) : Prop where
  decoded : crypto.decodeCertificate ca = some cert
  verified : ∃ root tbs tbsData, rootKey = some root ∧
    crypto.decodeToBeSigned ca = some tbs ∧ crypto.derEncode tbs = some tbsData ∧
    crypto.sm2Verify (crypto.sm3 tbsData) cert.signature.signature root = 1

def Certificate.HoldsKey (cert : Certificate) (pubKey : Key) : Prop :=
  ∃ signKey, cert.verificationKey.bind (·.take 64) = some signKey ∧
    crypto.sm2SetupKey (signKey.take 32) (signKey.drop 32) = some pubKey

structure SecuredMessage.Tagged (message : SecuredMessage) (signerinfo : SignerInfo) : Prop where
  signer : signerinfo.present = .certificateStr
  payload : message.payloadField.present = .Signed
  trailer : message.trailerFields.present = .signature
  signature : message.trailerFields.signature.present = .signature

structure SecuredMessage.Authentic (message : SecuredMessage) (payload : Bytes) : Prop where
  signed : message.payloadField.Signed.read = some payload
  verified : ∃ signerinfo cert pubKey, message.signerinfo = some signerinfo ∧
    message.Tagged signerinfo ∧ RootVerified crypto rootKey signerinfo.certificateStr cert ∧
    cert.HoldsKey crypto pubKey ∧
    crypto.sm2Verify (crypto.sm3 payload) message.trailerFields.signature.signature pubKey = 1

structure Delivered (securedData : Option Bytes) (before after : Output) : Prop where
  authentic : ∃ secured message payload buffer written, securedData = some secured ∧
    crypto.decodeSecuredMessage secured = some message ∧
    message.Authentic crypto rootKey payload ∧
    before.data = some buffer ∧ payload.length ≤ buffer.length ∧
    after.dataLen = some payload.length ∧ after.data = some written ∧
    written.take payload.length = payload

def AcceptsAuthentic (securedData : Option Bytes) (before : Output) : Outcome → Prop
  | .fault => False
  | .returned ret after =>
      ret = 0 ∧ Delivered crypto rootKey securedData before after ∨ ret < 0 ∧ after = before

/-- What `GetPubKey` asks of a certificate before it reads the key. -/
structure PassesRoot (ca : OctetString) (cert : Certificate) : Prop where
  present : ca.buf ≠ none
  decoded : crypto.decodeCertificate ca = some cert
  verified : ∃ root tbs tbsData, rootKey = some root ∧
    crypto.decodeToBeSigned ca = some tbs ∧ crypto.derEncode tbs = some tbsData ∧
    tbsData.length ≠ 0 ∧
    crypto.sm2Verify (crypto.sm3 tbsData) cert.signature.signature root = 1
  bnNew : crypto.bnNew = true

theorem PassesRoot.rootVerified {ca : OctetString} {cert : Certificate}
    (hpass : PassesRoot crypto rootKey ca cert) : RootVerified crypto rootKey ca cert := by
  obtain ⟨root, tbs, tbsData, hroot, htbs, hencode, _, hverify⟩ := hpass.verified
  exact ⟨hpass.decoded, root, tbs, tbsData, hroot, htbs, hencode, hverify⟩

def PassesKey (ca : OctetString) (pubKey : Key) : Prop :=
  ∃ cert, PassesRoot crypto rootKey ca cert ∧ cert.HoldsKey crypto pubKey

/-- The to-be-signed part fits its buffer, and a certificate that verifies has a key of
64 bytes. -/
structure SafeCertificate (ca : OctetString) : Prop where
  encodes : ∀ root cert tbs, ca.buf ≠ none → rootKey = some root →
    crypto.decodeCertificate ca = some cert → crypto.decodeToBeSigned ca = some tbs →
    ∃ tbsData, crypto.derEncode tbs = some tbsData
  key : ∀ cert, PassesRoot crypto rootKey ca cert →
    ∃ signKey, cert.verificationKey.bind (·.take 64) = some signKey

theorem getPubKey_of_unencoded {ca : OctetString} {root : Key} {cert : Certificate}
    {tbs : ToBeSigned} (hpresent : ca.buf ≠ none) (hcert : crypto.decodeCertificate ca = some cert)
    (htbs : crypto.decodeToBeSigned ca = some tbs) (hencode : crypto.derEncode tbs = none) :
    getPubKey crypto ca (some root) = none := by
  obtain ⟨bytes, hbuf⟩ := Option.ne_none_iff_exists'.mp hpresent
  simp only [getPubKey, hbuf, hcert, htbs, hencode]

theorem getPubKey_of_passesRoot {ca : OctetString} {cert : Certificate}
    (hpass : PassesRoot crypto rootKey ca cert) :
    getPubKey crypto ca rootKey = (cert.verificationKey.bind (·.take 64)).map fun signKey =>
      crypto.sm2SetupKey (signKey.take 32) (signKey.drop 32) := by
  obtain ⟨bytes, hbuf⟩ := Option.ne_none_iff_exists'.mp hpass.present
  obtain ⟨root, tbs, tbsData, hroot, htbs, hencode, hlen, hverify⟩ := hpass.verified
  simp only [getPubKey, hbuf, hroot, hpass.decoded, htbs, hencode, if_neg hlen, hverify,
    hpass.bnNew]
  cases cert.verificationKey.bind (·.take 64) <;> simp

theorem getPubKey_of_refused {ca : OctetString}
    (hencodes : ∀ root cert tbs, ca.buf ≠ none → rootKey = some root →
      crypto.decodeCertificate ca = some cert → crypto.decodeToBeSigned ca = some tbs →
      ∃ tbsData, crypto.derEncode tbs = some tbsData)
    (hrefused : ∀ cert, ¬ PassesRoot crypto rootKey ca cert) :
    getPubKey crypto ca rootKey = some none := by
  unfold getPubKey
  split
  next bytes root hbuf =>
    have hpresent : ca.buf ≠ none := by simp [hbuf]
    split
    next cert tbs hcert htbs =>
      obtain ⟨tbsData, hencode⟩ := hencodes root cert tbs hpresent rfl hcert htbs
      simp only [hencode]
      split_ifs with hlen hverify hbn
      · rfl
      · rfl
      · rfl
      · exact absurd ⟨hpresent, hcert, ⟨root, tbs, tbsData, rfl, htbs, hencode, hlen,
          Decidable.not_not.mp hverify⟩, by simpa using hbn⟩ (hrefused cert)
    next => rfl
  next => rfl

/-- What `GetPubKey` comes to: a certificate that is not safe, a certificate that does not
pass, or the key of one that does. -/
theorem getPubKey_cases (ca : OctetString) :
    getPubKey crypto ca rootKey = none ∧ ¬ SafeCertificate crypto rootKey ca ∨
    getPubKey crypto ca rootKey = some none ∧ SafeCertificate crypto rootKey ca ∧
      (∀ pubKey, ¬ PassesKey crypto rootKey ca pubKey) ∨
    ∃ pubKey, getPubKey crypto ca rootKey = some (some pubKey) ∧
      SafeCertificate crypto rootKey ca ∧ PassesKey crypto rootKey ca pubKey := by
  by_cases hencodes : ∀ root cert tbs, ca.buf ≠ none → rootKey = some root →
      crypto.decodeCertificate ca = some cert → crypto.decodeToBeSigned ca = some tbs →
      ∃ tbsData, crypto.derEncode tbs = some tbsData
  · by_cases hpasses : ∃ cert, PassesRoot crypto rootKey ca cert
    · obtain ⟨cert, hpass⟩ := hpasses
      have hsame : ∀ other, PassesRoot crypto rootKey ca other → other = cert :=
        fun other hother => Option.some.inj (hother.decoded.symm.trans hpass.decoded)
      rw [getPubKey_of_passesRoot crypto rootKey hpass]
      cases hkey : cert.verificationKey.bind (·.take 64) with
      | none =>
          refine Or.inl ⟨rfl, fun hsafe => ?_⟩
          obtain ⟨signKey, hsome⟩ := hsafe.key cert hpass
          cases hkey.symm.trans hsome
      | some signKey =>
          have hsafe : SafeCertificate crypto rootKey ca := by
            refine ⟨hencodes, fun other hother => ?_⟩
            rw [hsame other hother]
            exact ⟨signKey, hkey⟩
          cases hsetup : crypto.sm2SetupKey (signKey.take 32) (signKey.drop 32) with
          | none =>
              refine Or.inr (Or.inl ⟨by simp [hsetup], hsafe, ?_⟩)
              rintro pubKey ⟨other, hother, signKey', hkey', hsetup'⟩
              rw [hsame other hother] at hkey'
              cases hkey.symm.trans hkey'
              cases hsetup.symm.trans hsetup'
          | some pubKey =>
              exact Or.inr (Or.inr ⟨pubKey, by simp [hsetup], hsafe, cert, hpass, signKey,
                hkey, hsetup⟩)
    · have hrefused : ∀ cert, ¬ PassesRoot crypto rootKey ca cert := not_exists.mp hpasses
      refine Or.inr (Or.inl ⟨getPubKey_of_refused crypto rootKey hencodes hrefused, ?_, ?_⟩)
      · exact ⟨hencodes, fun cert hpass => absurd hpass (hrefused cert)⟩
      · rintro pubKey ⟨cert, hpass, _⟩
        exact hrefused cert hpass
  · push Not at hencodes
    obtain ⟨root, cert, tbs, hpresent, hroot, hcert, htbs, hunencoded⟩ := hencodes
    have hencode : crypto.derEncode tbs = none := Option.eq_none_iff_forall_ne_some.mpr hunencoded
    subst hroot
    refine Or.inl ⟨getPubKey_of_unencoded crypto hpresent hcert htbs hencode, fun hsafe => ?_⟩
    obtain ⟨tbsData, hsome⟩ := hsafe.encodes root cert tbs hpresent rfl hcert htbs
    cases hencode.symm.trans hsome

/-- What the code needs of a message, for a buffer of `capacity` bytes. -/
structure SafeMessage (message : SecuredMessage) (capacity : Nat) : Prop where
  signer : ∃ signerinfo, message.signerinfo = some signerinfo
  certificate : ∀ signerinfo, message.signerinfo = some signerinfo →
    SafeCertificate crypto rootKey signerinfo.certificateStr
  payload : ∀ signerinfo pubKey, message.signerinfo = some signerinfo →
    PassesKey crypto rootKey signerinfo.certificateStr pubKey →
    ∃ payload, message.payloadField.Signed.read = some payload
  accepted : ∀ signerinfo pubKey payload, message.signerinfo = some signerinfo →
    PassesKey crypto rootKey signerinfo.certificateStr pubKey →
    message.payloadField.Signed.read = some payload →
    crypto.sm2Verify (crypto.sm3 payload) message.trailerFields.signature.signature pubKey ≠ 0 →
    crypto.sm2Verify (crypto.sm3 payload) message.trailerFields.signature.signature pubKey = 1 ∧
      message.Tagged signerinfo ∧ payload.length ≤ capacity

theorem PassesKey.unique {ca : OctetString} {pubKey : Key} {cert : Certificate} {other : Key}
    (hpass : PassesKey crypto rootKey ca pubKey) (hcert : crypto.decodeCertificate ca = some cert)
    (hkey : cert.HoldsKey crypto other) : other = pubKey := by
  obtain ⟨cert', hpass', signKey', hread', hsetup'⟩ := hpass
  obtain ⟨signKey, hread, hsetup⟩ := hkey
  cases hcert.symm.trans hpass'.decoded
  cases hread.symm.trans hread'
  exact Option.some.inj (hsetup.symm.trans hsetup')

def verifyMessage (message : SecuredMessage) (output : Output) : Outcome :=
  match message.signerinfo with
  | none => .fault
  | some signerinfo =>
      match getPubKey crypto signerinfo.certificateStr rootKey with
      | none => .fault
      | some none => .returned (-3) output
      | some (some pubKey) =>
          match message.payloadField.Signed.read with
          | none => .fault
          | some payload =>
              if crypto.sm2Verify (crypto.sm3 payload)
                  message.trailerFields.signature.signature pubKey = 0
                then .returned (-4) output
              else store output payload

theorem verifyAndStrip_of_decoded {secured : Bytes} {message : SecuredMessage} {output : Output}
    (hdata : output.data ≠ none) (hlen : output.dataLen ≠ none)
    (hdecode : crypto.decodeSecuredMessage secured = some message) :
    verifyAndStrip crypto rootKey (some secured) output =
      verifyMessage crypto rootKey message output := by
  obtain ⟨buffer, hbuffer⟩ := Option.ne_none_iff_exists'.mp hdata
  obtain ⟨len, hsome⟩ := Option.ne_none_iff_exists'.mp hlen
  simp only [verifyAndStrip, hbuffer, hsome, hdecode]
  rfl

/-- An accepted message whose payload is `payload` is safe exactly when the call stores
an authentic payload. -/
theorem acceptsAuthentic_store_iff {secured : Bytes} {message : SecuredMessage}
    {output : Output} {buffer : Bytes} {signerinfo : SignerInfo} {pubKey : Key} {payload : Bytes}
    (hbuffer : output.data = some buffer)
    (hdecode : crypto.decodeSecuredMessage secured = some message)
    (hsigner : message.signerinfo = some signerinfo)
    (hkey : PassesKey crypto rootKey signerinfo.certificateStr pubKey)
    (hread : message.payloadField.Signed.read = some payload) :
    AcceptsAuthentic crypto rootKey (some secured) output (store output payload) ↔
      crypto.sm2Verify (crypto.sm3 payload) message.trailerFields.signature.signature pubKey = 1 ∧
        message.Tagged signerinfo ∧ payload.length ≤ buffer.length := by
  simp only [store, hbuffer]
  constructor
  · intro haccepts
    split_ifs at haccepts with hfits
    · rcases haccepts with ⟨_, hdelivered⟩ | ⟨hneg, _⟩
      · obtain ⟨secured', message', payload', _, _, hsecured', hdecode', hauth, _, _, _, _, _⟩ :=
          hdelivered.authentic
        cases hsecured'
        cases hdecode.symm.trans hdecode'
        cases hread.symm.trans hauth.signed
        obtain ⟨signerinfo', cert, other, hsigner', htagged, hroot, hholds, hverify⟩ :=
          hauth.verified
        cases hsigner.symm.trans hsigner'
        rw [hkey.unique crypto rootKey hroot.decoded hholds] at hverify
        exact ⟨hverify, htagged, hfits⟩
      · exact absurd hneg (by decide)
    · exact haccepts.elim
  · rintro ⟨hverify, htagged, hfits⟩
    rw [if_pos hfits]
    obtain ⟨cert, hpass, hholds⟩ := hkey
    refine Or.inl ⟨rfl, ⟨secured, message, payload, buffer, _, rfl, hdecode, ⟨hread, ?_⟩,
      hbuffer, hfits, rfl, rfl, List.take_left⟩⟩
    exact ⟨signerinfo, cert, pubKey, hsigner, htagged, hpass.rootVerified, hholds, hverify⟩

theorem SafeMessage.of_refused {message : SecuredMessage} {signerinfo : SignerInfo}
    (capacity : Nat) (hsigner : message.signerinfo = some signerinfo)
    (hsafe : SafeCertificate crypto rootKey signerinfo.certificateStr)
    (hrefused : ∀ pubKey, ¬ PassesKey crypto rootKey signerinfo.certificateStr pubKey) :
    SafeMessage crypto rootKey message capacity := by
  refine ⟨⟨signerinfo, hsigner⟩, ?_, ?_, ?_⟩
  · intro signerinfo' hsigner'
    cases hsigner.symm.trans hsigner'
    exact hsafe
  · intro signerinfo' pubKey hsigner' hkey
    cases hsigner.symm.trans hsigner'
    exact absurd hkey (hrefused pubKey)
  · intro signerinfo' pubKey _ hsigner' hkey
    cases hsigner.symm.trans hsigner'
    exact absurd hkey (hrefused pubKey)

theorem SafeMessage.of_passesKey {message : SecuredMessage} {signerinfo : SignerInfo}
    {pubKey : Key} {payload : Bytes} {capacity : Nat}
    (hsigner : message.signerinfo = some signerinfo)
    (hsafe : SafeCertificate crypto rootKey signerinfo.certificateStr)
    (hkey : PassesKey crypto rootKey signerinfo.certificateStr pubKey)
    (hread : message.payloadField.Signed.read = some payload)
    (haccepted : crypto.sm2Verify (crypto.sm3 payload)
        message.trailerFields.signature.signature pubKey ≠ 0 →
      crypto.sm2Verify (crypto.sm3 payload) message.trailerFields.signature.signature pubKey = 1 ∧
        message.Tagged signerinfo ∧ payload.length ≤ capacity) :
    SafeMessage crypto rootKey message capacity := by
  refine ⟨⟨signerinfo, hsigner⟩, ?_, fun _ _ _ _ => ⟨payload, hread⟩, ?_⟩
  · intro signerinfo' hsigner'
    cases hsigner.symm.trans hsigner'
    exact hsafe
  · rintro signerinfo' other payload' hsigner' ⟨cert, hpass, hholds⟩ hread'
    cases hsigner.symm.trans hsigner'
    cases hread.symm.trans hread'
    rw [hkey.unique crypto rootKey hpass.decoded hholds]
    exact haccepted

theorem verifyMessage_acceptsAuthentic_iff {secured : Bytes} {message : SecuredMessage}
    {output : Output} {buffer : Bytes} (hbuffer : output.data = some buffer)
    (hdecode : crypto.decodeSecuredMessage secured = some message) :
    AcceptsAuthentic crypto rootKey (some secured) output
        (verifyMessage crypto rootKey message output) ↔
      SafeMessage crypto rootKey message buffer.length := by
  unfold verifyMessage
  cases hsigner : message.signerinfo with
  | none =>
      constructor
      · exact False.elim
      · intro hmessage
        obtain ⟨signerinfo, hsome⟩ := hmessage.signer
        cases hsigner.symm.trans hsome
  | some signerinfo =>
      rcases getPubKey_cases crypto rootKey signerinfo.certificateStr with
        ⟨hget, hunsafe⟩ | ⟨hget, hsafe, hrefused⟩ | ⟨pubKey, hget, hsafe, hkey⟩
      · simp only [hget]
        exact ⟨False.elim, fun hmessage => hunsafe (hmessage.certificate signerinfo hsigner)⟩
      · simp only [hget]
        exact ⟨fun _ => SafeMessage.of_refused crypto rootKey _ hsigner hsafe hrefused,
          fun _ => Or.inr ⟨by decide, rfl⟩⟩
      · simp only [hget]
        cases hread : message.payloadField.Signed.read with
        | none =>
            refine ⟨False.elim, fun hmessage => ?_⟩
            obtain ⟨payload, hsome⟩ := hmessage.payload signerinfo pubKey hsigner hkey
            cases hread.symm.trans hsome
        | some payload =>
            dsimp only
            split_ifs with hverify
            · exact ⟨fun _ => SafeMessage.of_passesKey crypto rootKey hsigner hsafe hkey hread
                fun hpositive => absurd hverify hpositive, fun _ => Or.inr ⟨by decide, rfl⟩⟩
            · rw [acceptsAuthentic_store_iff crypto rootKey hbuffer hdecode hsigner hkey hread]
              constructor
              · intro hvalid
                exact SafeMessage.of_passesKey crypto rootKey hsigner hsafe hkey hread
                  fun _ => hvalid
              · intro hmessage
                exact hmessage.accepted signerinfo pubKey payload hsigner hkey hread hverify

theorem verifyAndStrip_of_not_decoded {securedData : Option Bytes} {output : Output}
    (hdecoded : ∀ secured, securedData = some secured → output.data ≠ none →
      output.dataLen ≠ none → crypto.decodeSecuredMessage secured = none) :
    AcceptsAuthentic crypto rootKey securedData output
      (verifyAndStrip crypto rootKey securedData output) := by
  unfold verifyAndStrip
  split
  next secured _ _ hdata hlen =>
    rw [hdecoded secured rfl (by simp [hdata]) (by simp [hlen])]
    exact Or.inr ⟨by decide, rfl⟩
  next => exact Or.inr ⟨by decide, rfl⟩

/-- The call accepts what is authentic only, and neither faults nor stores anything else,
exactly when every message it decodes is safe. -/
theorem verifyAndStrip_acceptsAuthentic_iff (securedData : Option Bytes) (output : Output) :
    AcceptsAuthentic crypto rootKey securedData output
        (verifyAndStrip crypto rootKey securedData output) ↔
      ∀ secured buffer message, securedData = some secured → output.data = some buffer →
        output.dataLen ≠ none → crypto.decodeSecuredMessage secured = some message →
        SafeMessage crypto rootKey message buffer.length := by
  by_cases hdecoded : ∃ secured buffer message, securedData = some secured ∧
      output.data = some buffer ∧ output.dataLen ≠ none ∧
      crypto.decodeSecuredMessage secured = some message
  · obtain ⟨secured, buffer, message, rfl, hbuffer, hlen, hdecode⟩ := hdecoded
    have hdata : output.data ≠ none := by simp [hbuffer]
    rw [verifyAndStrip_of_decoded crypto rootKey hdata hlen hdecode,
      verifyMessage_acceptsAuthentic_iff crypto rootKey hbuffer hdecode]
    constructor
    · intro hsafe secured' buffer' message' hsecured' hbuffer' _ hdecode'
      cases hsecured'
      cases hbuffer.symm.trans hbuffer'
      cases hdecode.symm.trans hdecode'
      exact hsafe
    · intro hall
      exact hall secured buffer message rfl hbuffer hlen hdecode
  · refine iff_of_true (verifyAndStrip_of_not_decoded crypto rootKey ?_) ?_
    · intro secured hsecured hdata hlen
      obtain ⟨buffer, hbuffer⟩ := Option.ne_none_iff_exists'.mp hdata
      cases hdecode : crypto.decodeSecuredMessage secured with
      | none => rfl
      | some message =>
          exact absurd ⟨secured, buffer, message, hsecured, hbuffer, hlen, hdecode⟩ hdecoded
    · intro secured buffer message hsecured hbuffer hlen hdecode
      exact absurd ⟨secured, buffer, message, hsecured, hbuffer, hlen, hdecode⟩ hdecoded

/-- A message with a certificate that verifies under the root key and a signature that
`SM2Verify` fails to check. -/
def forgedMessage : SecuredMessage :=
  ⟨some ⟨.certificateStr, ⟨some [1], 1⟩⟩, ⟨.Signed, ⟨some [7], 1⟩⟩,
    ⟨.signature, ⟨.signature, ⟨some [], 0⟩⟩⟩⟩

/-- The key is whether it is the root key, the only one under which anything verifies. -/
def forgedCrypto : Crypto Bool Unit where
  decodeSecuredMessage _ := some forgedMessage
  decodeCertificate _ := some ⟨⟨.signature, ⟨some [2], 1⟩⟩, some ⟨some (List.replicate 64 0), 64⟩⟩
  decodeToBeSigned _ := some ()
  derEncode _ := some [3]
  sm3 _ := List.replicate 32 0
  sm2Verify _ _ root := if root then 1 else -1
  sm2Verify_le_one _ _ root := by cases root <;> decide
  bnNew := true
  sm2SetupKey _ _ := some false

theorem acceptsAuthentic_fails :
    ¬ AcceptsAuthentic forgedCrypto (some true) (some [0]) ⟨some [0, 0], some 0⟩
        (verifyAndStrip forgedCrypto (some true) (some [0]) ⟨some [0, 0], some 0⟩) := by
  intro haccepts
  have hsafe := (verifyMessage_acceptsAuthentic_iff forgedCrypto (some true) rfl rfl).mp haccepts
  have hkey : PassesKey forgedCrypto (some true) ⟨some [1], 1⟩ false := by
    refine ⟨_, ⟨by decide, rfl, ⟨true, (), [3], rfl, rfl, rfl, by decide, rfl⟩, rfl⟩, ?_⟩
    exact ⟨List.replicate 64 0, by decide, rfl⟩
  have hvalid := hsafe.accepted _ false [7] rfl hkey rfl (by decide)
  exact absurd hvalid.1 (by decide)

theorem processSecured_submitted {mtu : Nat} {received : Option Bytes} {data : Bytes}
    (hsafe : ∀ buf message, received = some buf →
      crypto.decodeSecuredMessage buf = some message → SafeMessage crypto rootKey message mtu)
    (hround : processSecured crypto rootKey mtu received = .submitted data) :
    ∃ buf message, received = some buf ∧ crypto.decodeSecuredMessage buf = some message ∧
      message.Authentic crypto rootKey data ∧ data.length ≤ mtu := by
  cases received with
  | none => cases hround
  | some buf =>
      have haccepts : AcceptsAuthentic crypto rootKey (some buf)
          ⟨some (List.replicate mtu 0), some 0⟩
          (verifyAndStrip crypto rootKey (some buf) ⟨some (List.replicate mtu 0), some 0⟩) := by
        cases hdecode : crypto.decodeSecuredMessage buf with
        | none =>
            refine verifyAndStrip_of_not_decoded crypto rootKey fun secured hsecured _ _ => ?_
            cases hsecured
            exact hdecode
        | some message =>
            rw [verifyAndStrip_of_decoded crypto rootKey (by simp) (by simp) hdecode,
              verifyMessage_acceptsAuthentic_iff crypto rootKey rfl hdecode, List.length_replicate]
            exact hsafe buf message rfl hdecode
      simp only [processSecured] at hround
      split at hround
      next => cases hround
      next ret output houtcome =>
        rw [houtcome] at haccepts
        rcases haccepts with ⟨hret, hdelivered⟩ | ⟨hret, _⟩
        · rw [if_neg (not_not.mpr hret)] at hround
          obtain ⟨_, message, payload, buffer, written, hbuf, hdecode, hauth, hbuffer, hfits,
            hlen, hdata, htake⟩ := hdelivered.authentic
          cases hbuf
          cases hbuffer
          rw [hdata, hlen] at hround
          cases hround
          rw [List.length_replicate] at hfits
          refine ⟨buf, message, rfl, hdecode, ?_⟩
          simp only [Option.getD_some, htake]
          exact ⟨hauth, hfits⟩
        · rw [if_pos (by omega)] at hround
          cases hround

end ApolloContrib.Security
