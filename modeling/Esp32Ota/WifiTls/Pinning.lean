import Esp32Ota.WifiTls.Connect

-- Which pairs of public keys the pinning tells apart.
namespace Esp32Ota

open CLib Halting

def PubkeyDer.Encoded : PubkeyDer → Prop
  | .written _ _ => True
  | .failed _ _ => False

-- Both keys are encoded, byte for byte the same.
def SameKey : PubkeyDer → PubkeyDer → Prop
  | .written expected _, .written actual _ => expected = actual
  | _, _ => False

-- What pinning promises for a pair of keys, whatever else happens.
structure PinsExactly (expected actual : PubkeyDer) : Prop where
  sound : ∀ (replies : ConnectReplies) (s : Tls), replies.pinning.expected = expected →
    replies.pinning.actual = actual →
    wp (wifiTlsConnect replies) (fun result _ => result = 0 → SameKey expected actual)
      (fun _ _ => True) s
  rejects : ∀ replies : PinningReplies, replies.expected = expected → replies.actual = actual →
    ¬expected.Encoded ∨ ¬actual.Encoded → wifiTlsCertPinning replies = some (-1)
  accepts : ∀ replies : PinningReplies, replies.expected = expected → replies.actual = actual →
    replies.peerCert = true → replies.callocExpected = true → replies.callocActual = true →
    SameKey expected actual → wifiTlsCertPinning replies = some 0

-- The comparison starts at the front of the buffers, where a key of n bytes
-- leaves 512 - n zeros, so it ends after 2n - 512 bytes of the key.
def comparedBytes (n : Nat) : Nat := 2 * n - bufSize

def ToldApart : PubkeyDer → PubkeyDer → Prop
  | .written expected _, .written actual _ =>
      expected.length = actual.length → expected ≠ actual →
        expected.take (comparedBytes expected.length) ≠ actual.take (comparedBytes expected.length)
  | .failed code _, .failed code' _ => code ≠ code'
  | _, _ => True

theorem keyBuffer (der : Bytes) (h : der.length ≤ bufSize) :
    store (List.replicate bufSize 0) (bufSize - der.length) der =
      List.replicate (bufSize - der.length) 0 ++ der := by
  have hend : bufSize - der.length + der.length = bufSize := by omega
  have hmin : min (bufSize - der.length) bufSize = bufSize - der.length := by omega
  simp only [store, List.take_replicate, List.drop_replicate, hend, hmin, Nat.sub_self,
    List.replicate_zero, List.append_nil]

theorem take_keyBuffer (der : Bytes) (h : der.length ≤ bufSize) :
    (List.replicate (bufSize - der.length) 0 ++ der).take der.length =
      List.replicate (min der.length (bufSize - der.length)) 0 ++
        der.take (comparedBytes der.length) := by
  have hrest : der.length - (bufSize - der.length) = comparedBytes der.length := by
    unfold comparedBytes
    omega
  rw [List.take_append, List.take_replicate, List.length_replicate, hrest]

section Replies

variable {replies : PinningReplies} (hcert : replies.peerCert = true)
  (hexpected : replies.callocExpected = true) (hactual : replies.callocActual = true)

include hcert hexpected hactual

theorem pinning_written {expected actual : Bytes} {hlen : 0 < expected.length ∧ expected.length ≤ bufSize}
    {hlen' : 0 < actual.length ∧ actual.length ≤ bufSize}
    (he : replies.expected = .written expected hlen) (ha : replies.actual = .written actual hlen') :
    wifiTlsCertPinning replies = some (if expected.length = actual.length ∧
      expected.take (comparedBytes expected.length) = actual.take (comparedBytes expected.length)
      then 0 else -1) := by
  simp only [wifiTlsCertPinning, hcert, hexpected, hactual, he, ha, mbedtlsPkWritePubkeyDer,
    List.length_replicate, keyBuffer _ hlen.2, keyBuffer _ hlen'.2, Bool.not_true, Bool.or_self,
    Bool.false_eq_true, ite_false, Int.natCast_inj]
  by_cases hn : expected.length = actual.length
  · have hsize : toSize actual.length = actual.length :=
      toSize_natCast _ (by have := hlen'.2; unfold bufSize at this; omega)
    have hbuf : actual.length ≤ bufSize := hlen'.2
    simp only [hn, ite_true, true_and, memcmp, hsize, List.length_append, List.length_replicate]
    rw [if_pos (by omega), take_keyBuffer actual hbuf, ← hn, take_keyBuffer expected hlen.2, hn]
    simp only [List.append_cancel_left_eq, Option.map_some, decide_eq_true_eq]
  · simp only [hn, ite_false, false_and]

theorem pinning_failed {code code' : Int} {hcode : -2 ^ 31 ≤ code ∧ code < 0}
    {hcode' : -2 ^ 31 ≤ code' ∧ code' < 0} (he : replies.expected = .failed code hcode)
    (ha : replies.actual = .failed code' hcode') :
    wifiTlsCertPinning replies = if code = code' then none else some (-1) := by
  have hhuge : ¬toSize code' ≤ bufSize := by
    unfold toSize bufSize
    omega
  simp only [wifiTlsCertPinning, hcert, hexpected, hactual, he, ha, mbedtlsPkWritePubkeyDer,
    memcmp, List.length_replicate, Nat.min_self, hhuge, Bool.not_true, Bool.or_self,
    Bool.false_eq_true, ite_false, Option.map_none]

theorem pinning_mixed (h : replies.expected.Encoded ↔ ¬replies.actual.Encoded) :
    wifiTlsCertPinning replies = some (-1) := by
  cases he : replies.expected with
  | written der hlen =>
      cases ha : replies.actual with
      | written _ _ => simp [he, ha, PubkeyDer.Encoded] at h
      | failed code hcode =>
          have hne : (der.length : Int) ≠ code := by omega
          simp [wifiTlsCertPinning, hcert, hexpected, hactual, he, ha, mbedtlsPkWritePubkeyDer, hne]
  | failed code hcode =>
      cases ha : replies.actual with
      | written der hlen =>
          have hne : code ≠ (der.length : Int) := by omega
          simp [wifiTlsCertPinning, hcert, hexpected, hactual, he, ha, mbedtlsPkWritePubkeyDer, hne]
      | failed _ _ => simp [he, ha, PubkeyDer.Encoded] at h

end Replies

-- Without a certificate or a buffer, pinning fails.
theorem pinning_unavailable {replies : PinningReplies}
    (h : ¬(replies.peerCert = true ∧ replies.callocExpected = true ∧ replies.callocActual = true)) :
    wifiTlsCertPinning replies = some (-1) := by
  unfold wifiTlsCertPinning
  cases hcert : replies.peerCert <;> cases hexpected : replies.callocExpected <;>
    cases hactual : replies.callocActual <;> simp_all

-- A connect with a new context that meets no other obstacle.
def onlyPinning (pinning : PinningReplies) : ConnectReplies := ⟨0, 0, 0, 0, 0, [0], 0, pinning⟩

theorem connect_onlyPinning {pinning : PinningReplies} (h : wifiTlsCertPinning pinning = some 0) :
    ∃ t, wifiTlsConnect (onlyPinning pinning) Tls.create = .ok 0 t := by
  have hconnect : wp (wifiTlsConnect (onlyPinning pinning)) (fun result _ => result = 0)
      (fun _ _ => False) Tls.create := by
    simp [wifiTlsConnect, wifiTlsStartSession, wifiTlsInitContext, wifiTlsHandshake, onlyPinning,
      Tls.create, h]
  obtain ⟨_, t, ht, rfl⟩ := exists_ok_of_wp hconnect
  exact ⟨t, ht⟩

-- Two encodings that agree where they are compared are accepted for each other.
theorem PinsExactly.eq {expected actual : Bytes}
    {hlen : 0 < expected.length ∧ expected.length ≤ bufSize}
    {hlen' : 0 < actual.length ∧ actual.length ≤ bufSize}
    (h : PinsExactly (.written expected hlen) (.written actual hlen'))
    (hn : expected.length = actual.length)
    (hsame : expected.take (comparedBytes expected.length) =
      actual.take (comparedBytes expected.length)) : expected = actual := by
  have hpinning := @pinning_written ⟨true, true, true, .written expected hlen, .written actual hlen'⟩
    rfl rfl rfl _ _ hlen hlen' rfl rfl
  rw [if_pos ⟨hn, hsame⟩] at hpinning
  obtain ⟨t, ht⟩ := connect_onlyPinning hpinning
  exact wp_ok (h.sound (onlyPinning _) Tls.create rfl rfl) ht rfl

-- A pair of keys is treated as promised exactly if it differs in the bytes that
-- are compared, and if no two error codes are taken for equal lengths.
theorem pinsExactly_iff_toldApart (expected actual : PubkeyDer) :
    PinsExactly expected actual ↔ ToldApart expected actual := by
  constructor
  · intro h
    cases expected with
    | written expected hlen =>
        cases actual with
        | failed _ _ => trivial
        | written actual hlen' =>
            intro hn hne hsame
            exact hne (h.eq hn hsame)
    | failed code hcode =>
        cases actual with
        | written _ _ => trivial
        | failed code' hcode' =>
            intro heq
            have hpinning := @pinning_failed ⟨true, true, true, .failed code hcode, .failed code' hcode'⟩
              rfl rfl rfl _ _ hcode hcode' rfl rfl
            rw [if_pos heq, h.rejects _ rfl rfl (.inl id)] at hpinning
            cases hpinning
  · intro h
    have hfails : ∀ replies : PinningReplies, replies.expected = expected →
        replies.actual = actual → ¬SameKey expected actual →
        wifiTlsCertPinning replies = some (-1) := by
      intro replies he ha hdiffer
      by_cases hcalls : replies.peerCert = true ∧ replies.callocExpected = true ∧
          replies.callocActual = true
      · obtain ⟨hcert, hexpected, hactual⟩ := hcalls
        cases expected with
        | written expected hlen =>
            cases actual with
            | written actual hlen' =>
                rw [pinning_written hcert hexpected hactual he ha, if_neg]
                intro hagree
                obtain ⟨hn, hsame⟩ := hagree
                exact h hn hdiffer hsame
            | failed _ _ =>
                exact pinning_mixed hcert hexpected hactual (by rw [he, ha]; simp [PubkeyDer.Encoded])
        | failed code hcode =>
            cases actual with
            | written _ _ =>
                exact pinning_mixed hcert hexpected hactual (by rw [he, ha]; simp [PubkeyDer.Encoded])
            | failed code' hcode' =>
                rw [pinning_failed hcert hexpected hactual he ha, if_neg h]
      · exact pinning_unavailable hcalls
    refine ⟨fun replies s he ha => ?_, fun replies he ha hfailed => ?_, ?_⟩
    · refine wp_mono (wifiTlsConnect_spec replies s) ?_ (fun _ _ _ => trivial)
      intro result t hconnected heq
      obtain rfl := heq
      cases hconnected with
      | accepted _ _ hpinned =>
          by_contra hdiffer
          rw [hfails _ he ha hdiffer] at hpinned
          cases hpinned
      | failed _ hne => exact absurd rfl hne
    · refine hfails replies he ha fun hsame => ?_
      cases expected <;> cases actual <;> simp_all [SameKey, PubkeyDer.Encoded]
    · intro replies he ha hcert hexpected hactual hsame
      cases expected with
      | failed _ _ => exact hsame.elim
      | written expected hlen =>
          cases actual with
          | failed _ _ => exact hsame.elim
          | written actual hlen' =>
              have heq : expected = actual := hsame
              subst heq
              rw [pinning_written hcert hexpected hactual he ha, if_pos ⟨rfl, rfl⟩]

-- The DER encoding of a public key on the curve P-256.
def ecPublicKeyDer (x y : Bytes) : Bytes :=
  [0x30, 0x59, 0x30, 0x13, 0x06, 0x07, 0x2a, 0x86, 0x48, 0xce, 0x3d, 0x02, 0x01, 0x06, 0x08,
   0x2a, 0x86, 0x48, 0xce, 0x3d, 0x03, 0x01, 0x07, 0x03, 0x42, 0x00, 0x04] ++ x ++ y

-- The x coordinate of the base point, and the y coordinates of the two points
-- that have it.
def baseX : Bytes :=
  [0x6b, 0x17, 0xd1, 0xf2, 0xe1, 0x2c, 0x42, 0x47, 0xf8, 0xbc, 0xe6, 0xe5, 0x63, 0xa4, 0x40,
   0xf2, 0x77, 0x03, 0x7d, 0x81, 0x2d, 0xeb, 0x33, 0xa0, 0xf4, 0xa1, 0x39, 0x45, 0xd8, 0x98,
   0xc2, 0x96]

def baseY : Bytes :=
  [0x4f, 0xe3, 0x42, 0xe2, 0xfe, 0x1a, 0x7f, 0x9b, 0x8e, 0xe7, 0xeb, 0x4a, 0x7c, 0x0f, 0x9e,
   0x16, 0x2b, 0xce, 0x33, 0x57, 0x6b, 0x31, 0x5e, 0xce, 0xcb, 0xb6, 0x40, 0x68, 0x37, 0xbf,
   0x51, 0xf5]

def negatedBaseY : Bytes :=
  [0xb0, 0x1c, 0xbd, 0x1c, 0x01, 0xe5, 0x80, 0x65, 0x71, 0x18, 0x14, 0xb5, 0x83, 0xf0, 0x61,
   0xe9, 0xd4, 0x31, 0xcc, 0xa9, 0x94, 0xce, 0xa1, 0x31, 0x34, 0x49, 0xbf, 0x97, 0xc8, 0x40,
   0xae, 0x0a]

-- Of 91 bytes in a buffer of 512, pinning compares zeros only.
theorem pinning_not_exact : ¬∀ expected actual : PubkeyDer, PinsExactly expected actual := by
  intro h
  have heq := (h (.written (ecPublicKeyDer baseX baseY) (by decide))
    (.written (ecPublicKeyDer baseX negatedBaseY) (by decide))).eq (by decide) (by decide)
  exact absurd heq (by decide)

end Esp32Ota
