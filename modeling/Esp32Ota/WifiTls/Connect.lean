import Esp32Ota.WifiTls

-- What `wifi_tls_connect` establishes, and which of its events say so.
namespace Esp32Ota

open CLib Halting

-- Application data, on its way or asked for.
def TlsEvent.isData : TlsEvent → Bool
  | .sslWrite | .sent _ | .sslRead | .received _ => true
  | _ => false

def NoData (events : List TlsEvent) : Prop := ∀ event ∈ events, event.isData = false

theorem noData_cons {event : TlsEvent} {events : List TlsEvent} (hevent : event.isData = false)
    (h : NoData events) : NoData (event :: events) := by
  intro e he
  rcases List.mem_cons.mp he with rfl | he
  · exact hevent
  · exact h e he

@[simp] theorem wp_tlsLog (event : TlsEvent) (Q : Unit → Tls → Prop) (E : Halt → Tls → Prop)
    (s : Tls) : wp (tlsLog event) Q E s ↔ Q () { s with trace := event :: s.trace } := Iff.rfl

@[simp] theorem wp_wifiTlsResetContext (Q : Unit → Tls → Prop) (E : Halt → Tls → Prop) (s : Tls) :
    wp wifiTlsResetContext Q E s ↔
      Q () { s with isValid := false, handshakeOver := false, trace := .reset :: s.trace } := Iff.rfl

@[simp] theorem wp_wifiTlsDisconnect (Q : Unit → Tls → Prop) (E : Halt → Tls → Prop) (s : Tls) :
    wp wifiTlsDisconnect Q E s ↔ Q () { s with
      isValid := false
      handshakeOver := false
      serverFd := none
      openSockets := s.openSockets.filter fun socket => s.serverFd ≠ some socket
      trace := .reset :: s.trace } := Iff.rfl

@[simp] theorem wp_mbedtlsNetConnect (Q : Unit → Tls → Prop) (E : Halt → Tls → Prop) (s : Tls) :
    wp mbedtlsNetConnect Q E s ↔ Q () { s with
      serverFd := some s.nextSocket
      openSockets := s.nextSocket :: s.openSockets
      nextSocket := s.nextSocket + 1
      trace := .netConnect s.nextSocket :: s.trace } := Iff.rfl

-- The context is kept, set up afresh, or cleaned up again.
inductive InitContext (s t : Tls) (result : Int) : Prop
  | kept (valid : s.isValid = true) (hresult : result = 0) (heq : t = s)
  | initialised (fresh : s.isValid = false) (hresult : result = 0)
      (heq : t = { s with isValid := true, handshakeOver := false })
  | failed (fresh : s.isValid = false) (hresult : result = -1)
      (heq : t = { s with isValid := false, handshakeOver := false, trace := .reset :: s.trace })

theorem wifiTlsInitContext_spec (replies : ConnectReplies) (s : Tls) :
    wp (wifiTlsInitContext replies) (fun result t => InitContext s t result) (fun _ _ => False) s := by
  simp only [wifiTlsInitContext, wp_bind, wp_get, wp_modify, wp_ite, wp_pure,
    wp_wifiTlsResetContext]
  refine ⟨fun hvalid => .kept hvalid rfl rfl, fun hvalid => ?_⟩
  have hfresh : s.isValid = false := by simpa using hvalid
  have hfail := InitContext.failed hfresh rfl rfl
  exact ⟨fun _ => hfail, fun _ => ⟨fun _ => hfail, fun _ => ⟨fun _ => hfail, fun _ =>
    ⟨fun _ => hfail, fun _ => .initialised hfresh rfl rfl⟩⟩⟩⟩

-- A handshake either was over before, or ends on the current socket.
inductive Handshaken (s t : Tls) (result : Int) : Prop
  | resumed (handshake : s.handshakeOver = true) (hresult : result = 0) (heq : t = s)
  | completed (pending : s.handshakeOver = false) (hresult : result = 0)
      (heq : t = { s with handshakeOver := true, trace := .handshakeOver s.serverFd :: s.trace })
  | failed (pending : s.handshakeOver = false) (hresult : result = -1) (heq : t = s)

theorem wifiTlsHandshake_spec (results : List Int) (s : Tls) :
    wp (wifiTlsHandshake results) (fun result t => Handshaken s t result)
      (fun e t => e = .blocked ∧ t = s) s := by
  induction results with
  | nil =>
      simp only [wifiTlsHandshake, wp_bind, wp_get, wp_ite, wp_pure, wp_throw]
      exact ⟨fun hover => .resumed hover rfl rfl, fun _ => ⟨trivial, trivial⟩⟩
  | cons handshakeResult results ih =>
      simp only [wifiTlsHandshake, wp_bind, wp_get, wp_ite, wp_pure, wp_modify, wp_tlsLog]
      refine ⟨fun hover => .resumed hover rfl rfl, fun hover => ?_⟩
      have hpending : s.handshakeOver = false := by simpa using hover
      exact ⟨fun _ => .completed hpending rfl rfl, fun _ => ⟨fun _ => ih, fun _ => .failed hpending rfl rfl⟩⟩

-- The events of a connect that returns 0, newest first. The handshake is
-- among them unless that of an earlier connect is taken for it.
def handshakeEvents (resumed : Bool) (socket : Socket) : List TlsEvent :=
  (if resumed then [] else [.handshakeOver (some socket)]) ++ [.netConnect socket]

def connectEvents (resumed : Bool) (socket : Socket) : List TlsEvent :=
  [.connectReturned 0, .pinning 0, .verifyResult 0] ++ handshakeEvents resumed socket

-- A connect on a context that is still valid does not repeat the handshake.
def Tls.resumes (s : Tls) : Bool := s.isValid && s.handshakeOver

inductive Connected (replies : ConnectReplies) (s t : Tls) (result : Int) : Prop
  | accepted (socket : Socket) (hresult : result = 0)
      (pinned : wifiTlsCertPinning replies.pinning = some 0)
      (valid : t.isValid = true) (handshake : t.handshakeOver = true)
      (trace : t.trace = connectEvents s.resumes socket ++ s.trace)
  | failed (events : List TlsEvent) (hresult : result ≠ 0)
      (invalid : t.isValid = false) (handshake : t.handshakeOver = false)
      (trace : t.trace = .connectReturned result :: events ++ s.trace) (quiet : NoData events)

-- A connect that does not return has not exchanged any data either.
def Silent (s t : Tls) : Prop := ∃ events, t.trace = events ++ s.trace ∧ NoData events

theorem noData_handshakeEvents (resumed : Bool) (socket : Socket) :
    NoData (handshakeEvents resumed socket) := by
  cases resumed <;> simp [NoData, handshakeEvents, TlsEvent.isData]

theorem noData_connectEvents (resumed : Bool) (socket : Socket) : NoData (connectEvents resumed socket) :=
  noData_cons rfl (noData_cons rfl (noData_cons rfl (noData_handshakeEvents resumed socket)))

theorem Connected.silent {replies : ConnectReplies} {s t : Tls} {result : Int}
    (h : Connected replies s t result) : Silent s t := by
  cases h with
  | accepted socket _ _ _ _ trace => exact ⟨_, trace, noData_connectEvents _ socket⟩
  | failed events _ _ _ trace quiet => exact ⟨_, trace, noData_cons rfl quiet⟩

theorem wifiTlsConnect_spec (replies : ConnectReplies) (s : Tls) :
    wp (wifiTlsConnect replies) (fun result t => Connected replies s t result)
      (fun _ t => Silent s t) s := by
  simp only [wifiTlsConnect, wifiTlsStartSession, wp_bind, wp_ite, wp_pure, wp_modify, wp_tlsLog,
    wp_mbedtlsNetConnect, wp_wifiTlsResetContext, wp_wifiTlsDisconnect]
  refine wp_mono (wifiTlsInitContext_spec replies s) ?_ (fun _ _ h => h.elim)
  intro initResult u hinit
  refine ⟨fun hne => ?_, fun hok => ?_⟩
  · cases hinit with
    | kept _ hresult => exact absurd hresult hne
    | initialised _ hresult => exact absurd hresult hne
    | failed _ _ heq =>
        subst heq
        exact .failed [.reset] hne rfl rfl rfl (by simp [NoData, TlsEvent.isData])
  obtain ⟨hvalid, hover, htrace⟩ : u.isValid = true ∧
      u.handshakeOver = s.resumes ∧ u.trace = s.trace := by
    cases hinit with
    | kept hvalid _ heq => subst heq; simp [hvalid, Tls.resumes]
    | initialised hfresh _ heq => subst heq; simp [hfresh, Tls.resumes]
    | failed _ hresult => exact absurd hresult (by rw [not_not.mp hok]; decide)
  generalize hresumed : s.resumes = resumed at hover
  refine ⟨fun _ => .failed [.reset] (by decide) rfl rfl (by simp [htrace])
    (by simp [NoData, TlsEvent.isData]), fun _ => ?_⟩
  apply wp_mono (wifiTlsHandshake_spec replies.handshake _)
  · intro handshakeResult v hshake
    refine ⟨fun hne => ?_, fun hzero => ?_⟩
    · cases hshake with
      | resumed _ hresult => exact absurd hresult hne
      | completed _ hresult => exact absurd hresult hne
      | failed _ _ heq =>
          subst heq
          exact .failed [.reset, .netConnect u.nextSocket] (by decide) rfl rfl (by simp [htrace])
            (by simp [NoData, TlsEvent.isData])
    obtain ⟨hvalid, hdone, hevents⟩ : v.isValid = true ∧ v.handshakeOver = true ∧
        v.trace = handshakeEvents resumed u.nextSocket ++ s.trace := by
      cases hshake with
      | resumed hbefore _ heq => subst heq; simp_all [handshakeEvents]
      | completed hbefore _ heq => subst heq; simp_all [handshakeEvents]
      | failed _ hresult => exact absurd hresult (by rw [not_not.mp hzero]; decide)
    have hquiet := noData_handshakeEvents resumed u.nextSocket
    refine ⟨fun _ => ?_, fun hverified => ?_⟩
    · exact .failed (.reset :: .verifyResult replies.verifyResult :: handshakeEvents resumed u.nextSocket)
        (by decide) rfl rfl (by simp [hevents]) (noData_cons rfl (noData_cons rfl hquiet))
    cases hpinning : wifiTlsCertPinning replies.pinning with
    | none =>
        exact ⟨.verifyResult replies.verifyResult :: handshakeEvents resumed u.nextSocket,
          by simp [hevents], noData_cons rfl hquiet⟩
    | some pinningResult =>
        simp only [wp_bind, wp_tlsLog, wp_ite, wp_wifiTlsDisconnect, wp_pure]
        refine ⟨fun _ => ?_, fun hmatch => ?_⟩
        · exact .failed (.reset :: .pinning pinningResult :: .verifyResult replies.verifyResult ::
            handshakeEvents resumed u.nextSocket) (by decide) rfl rfl (by simp [hevents])
            (noData_cons rfl (noData_cons rfl (noData_cons rfl hquiet)))
        · rw [not_not] at hmatch hverified
          subst hmatch
          refine .accepted u.nextSocket rfl hpinning hvalid hdone ?_
          simp [hevents, hverified, hresumed, connectEvents, handshakeEvents]
  · intro e v hv
    obtain ⟨-, rfl⟩ := hv
    exact ⟨[.netConnect u.nextSocket], by simp [htrace], by simp [NoData, TlsEvent.isData]⟩

def ConnectReplies.SetsUp (replies : ConnectReplies) : Prop :=
  replies.ctrDrbgSeed = 0 ∧ replies.rootCaParse = 0 ∧ replies.peerParse = 0 ∧ replies.sslSetup = 0

-- The answer that ends the handshake.
def handshakeAnswer (results : List Int) : Option Int :=
  results.find? fun result =>
    result ≠ MBEDTLS_ERR_SSL_WANT_READ ∧ result ≠ MBEDTLS_ERR_SSL_WANT_WRITE

-- The replies with which a connect returns 0.
structure ConnectReplies.Accepts (replies : ConnectReplies) (s : Tls) : Prop where
  context : s.isValid = true ∨ replies.SetsUp
  netConnect : replies.netConnect = 0
  handshake : s.resumes = true ∨ handshakeAnswer replies.handshake = some 0
  verified : replies.verifyResult = 0
  pinned : wifiTlsCertPinning replies.pinning = some 0

-- Those with which it does not return, in the handshake or in the pinning.
structure ConnectReplies.Hangs (replies : ConnectReplies) (s : Tls) : Prop where
  context : s.isValid = true ∨ replies.SetsUp
  netConnect : replies.netConnect = 0
  cause : s.resumes = false ∧ handshakeAnswer replies.handshake = none ∨
    (s.resumes = true ∨ handshakeAnswer replies.handshake = some 0) ∧ replies.verifyResult = 0 ∧
      wifiTlsCertPinning replies.pinning = none

theorem ConnectReplies.Accepts.not_hangs {replies : ConnectReplies} {s : Tls} (h : replies.Accepts s) :
    ¬replies.Hangs s := by
  intro hhangs
  obtain ⟨-, -, ⟨hfresh, hnone⟩ | ⟨-, -, hpinning⟩⟩ := hhangs
  · rcases h.handshake with hresumes | hanswer
    · simp [hfresh] at hresumes
    · simp [hnone] at hanswer
  · simp [h.pinned] at hpinning

theorem wifiTlsInitContext_result (replies : ConnectReplies) (s : Tls) :
    wp (wifiTlsInitContext replies) (fun result t =>
      (result = 0 ↔ s.isValid = true ∨ replies.SetsUp) ∧ (result = 0 → t.handshakeOver = s.resumes))
      (fun _ _ => False) s := by
  simp only [wifiTlsInitContext, wp_bind, wp_get, wp_modify, wp_ite, wp_pure, wp_wifiTlsResetContext]
  refine ⟨fun hvalid => ⟨iff_of_true trivial (.inl hvalid), fun _ => by simp [Tls.resumes, hvalid]⟩,
    fun hvalid => ?_⟩
  have hfail : ¬replies.SetsUp → ((-1 : Int) = 0 ↔ s.isValid = true ∨ replies.SetsUp) ∧
      ((-1 : Int) = 0 → false = s.resumes) := fun h =>
    ⟨iff_of_false (by decide) (not_or.mpr ⟨hvalid, h⟩), fun h => absurd h (by decide)⟩
  refine ⟨fun h => hfail fun hup => h hup.1, fun h1 => ⟨fun h => hfail fun hup => h hup.2.1, fun h2 =>
    ⟨fun h => hfail fun hup => h hup.2.2.1, fun h3 => ⟨fun h => hfail fun hup => h hup.2.2.2, fun h4 => ?_⟩⟩⟩⟩
  rw [not_not] at h1 h2 h3 h4
  exact ⟨iff_of_true trivial (.inr ⟨h1, h2, h3, h4⟩), fun _ => by simp [Tls.resumes, hvalid]⟩

theorem wifiTlsHandshake_result (results : List Int) (s : Tls) :
    wp (wifiTlsHandshake results) (fun result _ =>
      (s.handshakeOver = true ∨ handshakeAnswer results ≠ none) ∧
      (result = 0 ↔ s.handshakeOver = true ∨ handshakeAnswer results = some 0))
      (fun _ _ => s.handshakeOver = false ∧ handshakeAnswer results = none) s := by
  induction results with
  | nil =>
      simp only [wifiTlsHandshake, wp_bind, wp_get, wp_ite, wp_pure, wp_throw]
      exact ⟨fun hover => ⟨.inl hover, iff_of_true trivial (.inl hover)⟩,
        fun hover => ⟨by simpa using hover, rfl⟩⟩
  | cons handshakeResult results ih =>
      simp only [wifiTlsHandshake, wp_bind, wp_get, wp_ite, wp_pure, wp_modify, wp_tlsLog]
      refine ⟨fun hover => ⟨.inl hover, iff_of_true trivial (.inl hover)⟩, fun hover => ⟨fun hzero => ?_,
        fun hzero => ⟨fun hagain => ?_, fun hdone => ?_⟩⟩⟩
      · have hanswer : handshakeAnswer (handshakeResult :: results) = some 0 := by
          rw [hzero]
          rfl
        exact ⟨.inr (by simp [hanswer]), iff_of_true trivial (.inr hanswer)⟩
      · have hskip : handshakeAnswer (handshakeResult :: results) = handshakeAnswer results :=
          List.find?_cons_of_neg (by simpa [or_iff_not_imp_left] using hagain)
        rw [hskip]
        exact ih
      · have hanswer : handshakeAnswer (handshakeResult :: results) = some handshakeResult :=
          List.find?_cons_of_pos (by simpa [not_or] using hdone)
        refine ⟨.inr (by simp [hanswer]), iff_of_false (by decide) ?_⟩
        simp [hover, hanswer, hzero]

theorem wifiTlsConnect_result (replies : ConnectReplies) (s : Tls) :
    wp (wifiTlsConnect replies) (fun result _ => (result = 0 ↔ replies.Accepts s) ∧ ¬replies.Hangs s)
      (fun _ _ => replies.Hangs s) s := by
  simp only [wifiTlsConnect, wifiTlsStartSession, wp_bind, wp_ite, wp_pure, wp_modify, wp_tlsLog,
    wp_mbedtlsNetConnect, wp_wifiTlsResetContext, wp_wifiTlsDisconnect]
  refine wp_mono (wifiTlsInitContext_result replies s) ?_ (fun _ _ h => h.elim)
  intro initResult u hu
  obtain ⟨hresult, hover⟩ := hu
  refine ⟨fun hfail => ?_, fun hup => ⟨fun hnet => ?_, fun hnet => ?_⟩⟩
  · exact ⟨iff_of_false hfail fun h => hfail (hresult.mpr h.context), fun h => hfail (hresult.mpr h.context)⟩
  · exact ⟨iff_of_false (by decide) fun h => hnet h.netConnect, fun h => hnet h.netConnect⟩
  rw [not_not] at hup hnet
  have hcontext := hresult.mp hup
  apply wp_mono (wifiTlsHandshake_result replies.handshake _)
  · intro handshakeResult v hv
    obtain ⟨hanswered, hshake⟩ := hv
    simp only [hover hup] at hanswered hshake
    have hreturns : ¬(s.resumes = false ∧ handshakeAnswer replies.handshake = none) := by
      intro hpending
      obtain ⟨hfresh, hnone⟩ := hpending
      simp [hfresh, hnone] at hanswered
    refine ⟨fun hfail => ?_, fun hok => ⟨fun hverify => ?_, fun hverify => ?_⟩⟩
    · have hnot := fun h => hfail (hshake.mpr h)
      exact ⟨iff_of_false (by decide) fun h => hnot h.handshake,
        fun h => h.cause.elim hreturns fun h => hnot h.1⟩
    · exact ⟨iff_of_false (by decide) fun h => hverify h.verified,
        fun h => h.cause.elim hreturns fun h => hverify h.2.1⟩
    rw [not_not] at hok hverify
    cases hpinning : wifiTlsCertPinning replies.pinning with
    | none => exact ⟨hcontext, hnet, .inr ⟨hshake.mp hok, hverify, hpinning⟩⟩
    | some pinningResult =>
        have hnothang : ¬replies.Hangs s := fun h => h.cause.elim hreturns fun h => by
          simp [hpinning] at h
        simp only [wp_bind, wp_tlsLog, wp_ite, wp_wifiTlsDisconnect, wp_pure]
        refine ⟨fun hpin => ⟨iff_of_false (by decide) fun h => ?_, hnothang⟩,
          fun hpin => ⟨iff_of_true trivial ?_, hnothang⟩⟩
        · have := h.pinned
          rw [hpinning, Option.some.injEq] at this
          exact hpin this
        · rw [not_not] at hpin
          exact ⟨hcontext, hnet, hshake.mp hok, hverify, by rw [hpinning, hpin]⟩
  · intro e v hv
    obtain ⟨hpending, hnone⟩ := hv
    simp only [hover hup] at hpending
    exact ⟨hcontext, hnet, .inl ⟨hpending, hnone⟩⟩

end Esp32Ota
