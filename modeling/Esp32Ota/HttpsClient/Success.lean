import Esp32Ota.HttpsClient.Protocol

-- What a successful request has told its application.
namespace Esp32Ota

open CLib Halting

section Reports

variable {α : Type} {mode : HttpResponseMode} {size index : Nat} {bytes : Bytes}
  {s : Client (Recorded α)}

-- The body callback was called for the whole body, or for its end.
def Completed (mode : HttpResponseMode) (s : Client (Recorded α)) : Prop :=
  match mode with
  | .waitForCompleteBody =>
      ∃ n answer, .body n answer ∈ s.app.calls ∧ s.context.contentLength ≤ n
  | .streamBody => ∃ answer, .body 0 answer ∈ s.app.calls

def AskedToStop (s : Client (Recorded α)) : Prop :=
  ∃ n answer, .body n (some answer) ∈ s.app.calls ∧ answer ≠ .continueReceiving

def ErrorInvoked (s : Client (Recorded α)) : Prop :=
  ∃ error info, .error error info ∈ s.app.calls

def Reports (mode : HttpResponseMode) (s : Client (Recorded α)) : Prop :=
  Completed mode s ∨ AskedToStop s ∨ ErrorInvoked s

theorem silent_of_quiet (h : s.app.calls = []) : ¬Reports mode s := by
  intro hreports
  rcases hreports with hcompleted | ⟨n, answer, hmem, -⟩ | ⟨error, info, hmem⟩
  · cases mode with
    | waitForCompleteBody =>
        obtain ⟨n, answer, hmem, -⟩ := hcompleted
        simp [h] at hmem
    | streamBody =>
        obtain ⟨answer, hmem⟩ := hcompleted
        simp [h] at hmem
  · simp [h] at hmem
  · simp [h] at hmem

-- Between two reads nothing of the kind has happened.
theorem Pause.silent (h : Pause mode index bytes s) : ¬Reports mode s := by
  cases h with
  | headers _ _ quiet => exact silent_of_quiet quiet
  | body _ _ _ _ _ _ _ _ _ _ continued =>
      cases mode with
      | waitForCompleteBody => exact silent_of_quiet continued
      | streamBody =>
          have hcalls : AllContinued s.app.calls := continued
          intro hreports
          rcases hreports with ⟨answer, hmem⟩ | ⟨n, answer, hmem, hstop⟩ | ⟨error, info, hmem⟩
          · obtain ⟨n, hn, hcall⟩ := hcalls _ hmem
            cases hcall
            exact absurd hn (Nat.lt_irrefl 0)
          · obtain ⟨m, -, hcall⟩ := hcalls _ hmem
            cases hcall
            exact hstop rfl
          · obtain ⟨m, -, hcall⟩ := hcalls _ hmem
            cases hcall

-- An end of the reading is reported, but for headers that lack a length.
theorem Stopped.reports (h : Stopped mode size bytes s) :
    Reports mode s ∨ (LacksLength bytes ∧ bytes.length ≤ size) := by
  obtain ⟨houtcome, hanswered⟩ := h
  cases houtcome with
  | unannounced lacks fits _ => exact .inr ⟨lacks, fits⟩
  | reported error info earlier hcalls =>
      exact .inl (.inr (.inr ⟨error, info, by rw [hcalls]; exact List.mem_cons_self⟩))
  | concluded i contentLength _ _ _ length conclusion =>
      left
      cases mode with
      | waitForCompleteBody =>
          obtain ⟨hlen, answer, hcalls⟩ := conclusion
          exact .inl ⟨_, answer, by rw [hcalls]; exact List.mem_cons_self, by rw [length]; exact hlen⟩
      | streamBody =>
          obtain ⟨n, earlier, hn, hearlier, hends⟩ := conclusion
          rcases hends with ⟨answer, hanswer, hcalls⟩ | ⟨-, answer, hcalls⟩
          · cases answer with
            | none => exact absurd (by rw [hcalls]; exact List.mem_cons_self) (hanswered n)
            | some cr =>
                exact .inr (.inl ⟨n, cr, by rw [hcalls]; exact List.mem_cons_self, by simpa using hanswer⟩)
          · exact .inl ⟨answer, by rw [hcalls]; exact List.mem_cons_self⟩

theorem Pause.not_lacksLength (h : Pause mode index bytes s) : ¬LacksLength bytes := by
  cases h with
  | headers hs =>
      intro hlacks
      obtain ⟨i, minor, hfind, -⟩ := hlacks
      rw [hs.pending] at hfind
      cases hfind
  | body i contentLength content _ found accepted => exact not_lacksLength_of_accepted found accepted

end Reports

section Condition

variable {α : Type}

-- The server closes the connection, and the client still wants to read.
def ClosedEarly (valid : ValidRequest α) (replies : RequestReplies) (s : Client α) : Prop :=
  readEnd replies.reads = .eof ∧ ∃ staleResponse t, replies.mallocResponseBuffer = some staleResponse ∧
    feed (httpsTlsCallback valid) (fragments replies.reads) 0
      (staleBlock staleResponse tlsResponseBufferSize) (s.start valid) = .ok true t

-- Headers with status 200 and without a content length have been read, and they
-- fit into the response buffer.
def GivenUp (size : Nat) (fs : List Bytes) : Prop :=
  ∃ n, LacksLength (fs.take n).flatten ∧ (fs.take n).flatten.length ≤ size

-- Such headers end the reading, and nothing else does.
theorem GivenUp.not_before {mode : HttpResponseMode} {size : Nat} {fs : List Bytes} {n m : Nat}
    (hlacks : LacksLength (fs.take n).flatten) (hfits : (fs.take n).flatten.length ≤ size)
    (hpaused : PausesBefore (Reading (α := α) mode size) [] fs m)
    (hcause : size < (fs.take m).flatten.length ∨ ∀ more, ¬LacksLength ((fs.take m).flatten ++ more)) :
    False := by
  by_cases hle : m ≤ n
  · obtain ⟨more, hmore⟩ := take_flatten_append fs hle
    rcases hcause with hlong | hnot
    · rw [hmore, List.length_append] at hfits
      omega
    · exact hnot more (hmore ▸ hlacks)
  · obtain ⟨index, buffer, client, hreading⟩ := hpaused n (by omega)
    exact hreading.1.not_lacksLength hlacks

end Condition

section Request

variable {α : Type} {request : HttpRequest α} {replies : RequestReplies} {s : Conn (Client α)}
  {valid : ValidRequest α} {staleResponse : Nat → UInt8}

theorem RequestReturns.reports {result : Int} {bytes : Bytes} {client : Client (Recorded α)}
    (hresponse : replies.mallocResponseBuffer = some staleResponse)
    (hopen : ¬ClosedEarly valid replies s.client)
    (hlengths : ¬GivenUp valid.responseBuffer.length (fragments replies.reads))
    (h : RequestReturns valid replies staleResponse s.client result bytes client) (hresult : result = 0) :
    Reports valid.responseMode client := by
  cases h with
  | stopped n _ _ _ processed _ done _ =>
      refine done.reports.resolve_right fun hlacks => hlengths ⟨n, ?_⟩
      rwa [List.nil_append, processed] at hlacks
  | ended _ _ hends _ _ _ fed =>
      rcases hends with ⟨heof, -⟩ | ⟨-, hfailed⟩
      · exact absurd ⟨heof, staleResponse, client.erase, hresponse, (feed_erase _ _ _ _).ok fed⟩ hopen
      · rw [hresult] at hfailed
        cases hfailed

-- Without a word to the application, if reading is sure to end that way.
theorem success_of_reads (hvalid : httpsValidateRequest request = .ok valid)
    (haccepted : ¬Refused request replies)
    (hwrites : writesAll replies.writes
      (httpGetRequestFormatString.length + valid.host.length + valid.path.length) = true)
    (hreturns : ∀ staleResponse result bytes client, replies.mallocResponseBuffer = some staleResponse →
      RequestReturns valid replies staleResponse s.client result bytes client →
      result = 0 ∧ ¬Reports valid.responseMode client)
    (hhalts : ∀ staleResponse e bytes client, replies.mallocResponseBuffer = some staleResponse →
      ¬RequestHalts valid replies staleResponse s.client e bytes client) :
    ∃ t, httpsSendRequest request.recording replies s.recording = .ok .success t ∧
      ¬Reports valid.responseMode t.client := by
  have hwp : wp (httpsSendRequest request.recording replies)
      (fun result t => result = .success ∧ ¬Reports valid.responseMode t.client) (fun _ _ => False)
      s.recording := by
    apply wp_httpsSendRequest_recording
    · exact fun hearly => absurd (refused_of_returnsEarly hearly) haccepted
    · exact fun hrefused => haccepted hrefused
    · intro other hother hnot
      rw [hvalid, Except.ok.injEq] at hother
      rw [← hother, hwrites] at hnot
      cases hnot
    · intro other staleResponse hother _ _ hresponse
      rw [hvalid, Except.ok.injEq] at hother
      subst hother
      refine ⟨fun result tls bytes client _ h => ?_, fun e tls bytes client _ h => ?_⟩
      · obtain ⟨rfl, hsilent⟩ := hreturns staleResponse result bytes client hresponse h
        exact ⟨rfl, hsilent⟩
      · exact hhalts staleResponse e bytes client hresponse h
  obtain ⟨result, t, hrun, rfl, hsilent⟩ := exists_ok_of_wp hwp
  exact ⟨t, hrun, hsilent⟩

theorem silent_of_closedEarly (hvalid : httpsValidateRequest request = .ok valid)
    (haccepted : ¬Refused request replies)
    (hwrites : writesAll replies.writes
      (httpGetRequestFormatString.length + valid.host.length + valid.path.length) = true)
    (hclosed : ClosedEarly valid replies s.client) :
    ∃ t, httpsSendRequest request.recording replies s.recording = .ok .success t ∧
      ¬Reports valid.responseMode t.client := by
  obtain ⟨heof, stale, u, hstale, hfed⟩ := hclosed
  apply success_of_reads hvalid haccepted hwrites
  · intro staleResponse result bytes client hresponse h
    rw [hstale, Option.some.injEq] at hresponse
    subst hresponse
    cases h with
    | stopped _ _ _ _ _ _ _ fed =>
        have hplain := (feed_erase _ _ _ _).ok fed
        have hboth := hplain.symm.trans hfed
        cases hboth
    | ended _ _ hends _ _ pausing _ =>
        refine ⟨?_, pausing.1.silent⟩
        rcases hends with ⟨-, hzero⟩ | ⟨hfailed, -⟩
        · exact hzero
        · rw [heof] at hfailed
          cases hfailed
  · intro staleResponse e bytes client hresponse h
    rw [hstale, Option.some.injEq] at hresponse
    subst hresponse
    cases h with
    | halted _ _ _ _ _ _ fed =>
        have hplain := (feed_erase _ _ _ _).error fed
        have hboth := hplain.symm.trans hfed
        cases hboth
    | blocked _ _ pending =>
        rw [heof] at pending
        cases pending

theorem silent_of_givenUp (hvalid : httpsValidateRequest request = .ok valid)
    (haccepted : ¬Refused request replies)
    (hwrites : writesAll replies.writes
      (httpGetRequestFormatString.length + valid.host.length + valid.path.length) = true)
    (hgiven : GivenUp valid.responseBuffer.length (fragments replies.reads)) :
    ∃ t, httpsSendRequest request.recording replies s.recording = .ok .success t ∧
      ¬Reports valid.responseMode t.client := by
  obtain ⟨n, hlacks, hfits⟩ := hgiven
  -- all reads cannot be processed
  have hall : ∀ index buffer (client : Client (Recorded α)),
      PausesBefore (Reading (α := α) valid.responseMode valid.responseBuffer.length) []
        (fragments replies.reads) (fragments replies.reads).length →
      ¬Reading valid.responseMode valid.responseBuffer.length index
        ([] ++ (fragments replies.reads).flatten) buffer client := by
    intro index buffer client hpaused hreading
    by_cases hn : n < (fragments replies.reads).length
    · obtain ⟨_, _, _, hreading⟩ := hpaused n hn
      exact hreading.1.not_lacksLength hlacks
    · rw [List.take_of_length_le (by omega)] at hlacks
      exact hreading.1.not_lacksLength hlacks
  apply success_of_reads hvalid haccepted hwrites
  · intro staleResponse result bytes client _ h
    cases h with
    | ended lastIndex lastBuffer _ processed paused pausing _ =>
        rw [processed] at pausing
        exact absurd pausing (hall _ _ _ paused)
    | stopped m _ _ hresult processed paused done _ =>
        refine ⟨hresult, ?_⟩
        rw [List.nil_append, processed] at done
        cases done.1 with
        | reported _ _ _ _ _ _ cause => exact absurd cause (GivenUp.not_before hlacks hfits paused)
        | concluded i contentLength found accepted =>
            exact absurd (.inr (not_lacksLength_append found accepted))
              (GivenUp.not_before hlacks hfits paused)
        | unannounced _ _ quiet => exact silent_of_quiet quiet
  · intro staleResponse e bytes client _ h
    cases h with
    | halted m _ _ processed paused halt _ =>
        rw [List.nil_append, processed] at halt
        exact GivenUp.not_before hlacks hfits paused halt.2
    | blocked _ _ _ _ processed paused pausing _ =>
        rw [processed] at pausing
        exact hall _ _ _ paused pausing

-- A request that succeeds has told its application so, or why not, exactly if
-- the connection does not end under it and no header block lacks its length.
theorem success_reported_iff (request : HttpRequest α) (replies : RequestReplies) (s : Conn (Client α))
    (valid : ValidRequest α) (hvalid : httpsValidateRequest request = .ok valid) :
    (∀ t, httpsSendRequest request.recording replies s.recording = .ok .success t →
        Reports valid.responseMode t.client) ↔
      (¬Refused request replies →
        writesAll replies.writes
          (httpGetRequestFormatString.length + valid.host.length + valid.path.length) = true →
        ¬ClosedEarly valid replies s.client ∧
          ¬GivenUp valid.responseBuffer.length (fragments replies.reads)) := by
  constructor
  · intro hreports haccepted hwrites
    refine ⟨fun hclosed => ?_, fun hgiven => ?_⟩
    · obtain ⟨t, hrun, hsilent⟩ := silent_of_closedEarly hvalid haccepted hwrites hclosed
      exact hsilent (hreports t hrun)
    · obtain ⟨t, hrun, hsilent⟩ := silent_of_givenUp hvalid haccepted hwrites hgiven
      exact hsilent (hreports t hrun)
  · intro hcondition t hrun
    have hwp : wp (httpsSendRequest request.recording replies)
        (fun result t => result = .success → Reports valid.responseMode t.client) (fun _ _ => True)
        s.recording := by
      apply wp_httpsSendRequest_recording
      · exact fun _ _ hne h => absurd h hne
      · exact fun _ => trivial
      · exact fun _ _ _ => ⟨fun _ _ h => (by cases h), fun _ _ _ => trivial⟩
      · intro other staleResponse hother haccepted hwrites hresponse
        rw [hvalid, Except.ok.injEq] at hother
        subst hother
        obtain ⟨hopen, hlengths⟩ := hcondition haccepted hwrites
        refine ⟨fun result tls bytes client _ h hsuccess => ?_, fun _ _ _ _ _ _ => trivial⟩
        apply RequestReturns.reports hresponse hopen hlengths h
        by_contra hne
        rw [if_neg hne] at hsuccess
        cases hsuccess
    exact wp_ok hwp hrun rfl

end Request

theorem oneByte_reported :
    httpsValidateRequest (exampleGet .streamBody) = .ok (exampleRequest .streamBody) ∧
      ∀ t, httpsSendRequest (exampleGet .streamBody).recording (getReplies [60] [.data oneByteResponse])
        exampleClient.recording = .ok .success t → Reports .streamBody t.client := by
  refine ⟨exampleGet_valid .streamBody, (success_reported_iff (exampleGet .streamBody)
    (getReplies [60] [.data oneByteResponse])
    exampleClient (exampleRequest .streamBody) (exampleGet_valid .streamBody)).mpr fun _ _ => ⟨?_, ?_⟩⟩
  · intro hclosed
    cases hclosed.1
  · intro hgiven
    obtain ⟨n, hlacks, -⟩ := hgiven
    cases n with
    | zero =>
        obtain ⟨i, -, hfind, -⟩ := hlacks
        cases hfind
    | succ n =>
        have hreads : ((fragments [.data oneByteResponse]).take (n + 1)).flatten = oneByteResponse.val := by
          simp [fragments]
        have haccept : acceptedLength (oneByteResponse.val.take 34) = some 1 := by decide
        exact not_lacksLength_of_accepted (by decide) haccept (hreads ▸ hlacks)

-- The server closes the connection at once.
theorem success_not_reported :
    ¬∀ (α : Type) (request : HttpRequest α) (replies : RequestReplies) (s : Conn (Client α))
      (valid : ValidRequest α), httpsValidateRequest request = .ok valid →
      ∀ t, httpsSendRequest request.recording replies s.recording = .ok .success t →
        Reports valid.responseMode t.client := by
  intro h
  have hclosed : ClosedEarly (exampleRequest .streamBody) (getReplies [60] [.eof])
      exampleClient.client := ⟨rfl, fun _ => 0, _, rfl, rfl⟩
  obtain ⟨t, hrun, hsilent⟩ := silent_of_closedEarly (exampleGet_valid .streamBody)
    (exampleGet_accepted .streamBody [60] [.eof]) (by decide) hclosed
  exact hsilent (h Unit _ _ exampleClient _ (exampleGet_valid .streamBody) t hrun)

end Esp32Ota
