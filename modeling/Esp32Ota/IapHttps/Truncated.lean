import Esp32Ota.IapHttps.Step
import Esp32Ota.Iap.Commit

-- A download that is cut off is not activated.
namespace Esp32Ota

open CLib Halting

-- The events that make a new image run.
def Event.activates : Event → Bool
  | .otaSetBootPartition _ _ | .espRestart => true
  | _ => false

-- What follows the first empty line.
def messageBody (received : Bytes) : Bytes :=
  match find crlfcrlf received with
  | some i => received.drop (i + 4)
  | none => []

-- The bytes of the TLS reads since an earlier state of the same run.
def receivedSince (s t : Updater) : Bytes :=
  (received t.tls.trace).drop (received s.tls.trace).length

-- The context is that of the attempt once a byte has been read.
def HeadersAccepted (s t : Updater) : Prop :=
  receivedSince s t ≠ [] ∧ t.client.context.isProcessingHeaders = false

def Truncated (s t : Updater) : Prop :=
  ¬HeadersAccepted s t ∨ (messageBody (receivedSince s t)).length < t.client.context.contentLength

instance (s t : Updater) : Decidable (Truncated s t) :=
  inferInstanceAs (Decidable (¬(_ ∧ _) ∨ _))

structure NotActivated (s t : App) : Prop where
  events : ∀ event ∈ newEvents s.device t.device, event.activates = false
  hasNewFirmware : t.hasNewFirmware = s.hasNewFirmware

theorem SessionEvent.inactive {replies : FirmwareReplies} {boot : Partition} {event : Event}
    (h : SessionEvent replies boot event) : event.activates = false := by
  rcases h with ⟨_, _, _, rfl, -⟩ | ⟨_, _, _, rfl, -⟩ | ⟨_, _, _, rfl⟩ | ⟨_, _, rfl⟩ <;> rfl

theorem Serves.notActivated {s t : App} (h : Serves (fun event => event.activates = false) s t) :
    NotActivated s t := by
  obtain ⟨events, htrace, hevents⟩ := h.device.events
  exact ⟨by rwa [newEvents_of_append htrace], h.hasNewFirmware⟩

-- The raw scan finds the end of the headers where the scan of the C string does.
theorem messageBody_of_find {received : Bytes} {i : Nat} (h : find crlfcrlf (cstr received) = some i) :
    messageBody received = received.drop (i + 4) := by
  obtain ⟨rest, hrest⟩ := cstr_isPrefix received
  have hfind := find_append h rest
  rw [hrest] at hfind
  rw [messageBody, hfind]

theorem Complete.not_truncated {s t : Updater} {bytes : Bytes} (h : Complete bytes t.client)
    (hbytes : receivedSince s t = bytes) : ¬Truncated s t := by
  obtain ⟨haccepted, i, hfind, hlen⟩ := h
  have hne : bytes ≠ [] := by
    intro heq
    obtain rfl := heq
    simp [cstr, find, crlfcrlf, ascii] at hfind
  intro htruncated
  rcases htruncated with hheaders | hshort
  · exact hheaders ⟨hbytes ▸ hne, haccepted⟩
  · rw [hbytes, messageBody_of_find hfind, List.length_drop] at hshort
    omega

theorem firmwareBodyCallback_handles {platform : Nat → FirmwareReplies} {valid : ValidRequest App}
    (hbody : valid.bodyCallback = firmwareBodyCallback platform)
    (herror : valid.errorCallback = iapHttpsErrorCallback) (s : App) :
    Handles valid (Serves (fun event => event.activates = false) s)
      (fun bytes t => Complete bytes t ∨ Serves (fun event => event.activates = false) s t.app)
      (fun _ bytes t => Complete bytes t ∨ Serves (fun event => event.activates = false) s t.app) := by
  refine handles_of_serves hbody herror (fun _ _ _ h => h.inactive) (fun _ _ ht => .inr ht)
    (fun _ _ _ ht => .inr ht) fun bytes t _ hcomplete => ?_
  exact wp_body_of_called fun u hu => .inl (by rwa [Complete, hu.context])

-- However the attempt ends, and from whatever state it starts.
theorem truncated_not_activated (platform : Nat → FirmwareReplies) (script : Script) (s t : Updater)
    (ht : final (iapHttpsDownloadImage platform script) s = t) (htruncated : Truncated s t) :
    NotActivated s.client.app t.client.app := by
  have hstart : Serves (fun event => event.activates = false) s.client.app s.client.app.newAttempt :=
    ⟨Keeps.refl _ _, rfl, rfl⟩
  have hread : ∀ u bytes, received u.tls.trace = received s.tls.trace ++ bytes →
      (Complete bytes u.client ∨ Serves (fun event => event.activates = false) s.client.app u.client.app) →
      Truncated s u → NotActivated s.client.app u.client.app := by
    intro u bytes hbytes hu htruncated
    have hsince : receivedSince s u = bytes := by simp [receivedSince, hbytes]
    exact hu.elim (fun h => absurd htruncated (h.not_truncated hsince)) Serves.notActivated
  have hdownload : wp (iapHttpsDownloadImage platform script)
      (fun _ u => Truncated s u → NotActivated s.client.app u.client.app)
      (fun _ u => Truncated s u → NotActivated s.client.app u.client.app) s := by
    refine wp_mono (iapHttpsDownloadImage_handled script hstart fun valid hbody herror =>
      firmwareBodyCallback_handles hbody herror s.client.app) ?_ ?_
    · intro _ u hpost
      rcases hpost with ⟨happ, -⟩ | ⟨bytes, hu, hbytes⟩
      · exact fun _ => happ ▸ hstart.notActivated
      · exact hread u bytes hbytes hu
    · intro _ u hpost
      rcases hpost with hsame | ⟨happ, -⟩ | ⟨bytes, hu, hbytes⟩
      · exact fun _ => by rw [hsame]; exact (Serves.refl _ _).notActivated
      · exact fun _ => happ ▸ hstart.notActivated
      · exact hread u bytes hbytes hu
  have hfinal := final_of_wp (P := fun u => Truncated s u → NotActivated s.client.app u.client.app) hdownload
  rw [ht] at hfinal
  exact hfinal htruncated

-- The second of two body bytes does not arrive.
def cutResponse : Fragment := ⟨ascii "HTTP/1.1 200 OK\r\nContent-Length: 2\r\n\r\na", by decide⟩

theorem cut_download_not_activated :
    NotActivated (exampleUpdater ⟨"factory", 0x10000⟩ true).client.app
      (final (iapHttpsDownloadImage (fun _ => exampleFirmwareReplies ⟨ESP_OK, ESP_OK, ESP_OK⟩)
        (exampleScript exampleConnect [.data cutResponse, .eof]))
        (exampleUpdater ⟨"factory", 0x10000⟩ true)).client.app :=
  truncated_not_activated _ _ _ _ rfl (by decide +kernel)

end Esp32Ota
