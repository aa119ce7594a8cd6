import Esp32Ota.IapHttps.Announced
import Esp32Ota.IapHttps.Check
import Esp32Ota.IapHttps.Delivery
import Esp32Ota.IapHttps.History

-- A version that the server announces is installed by the next download, whatever the timers and the
-- callers do in between.
namespace Esp32Ota

open CLib Halting

-- The check gets a document with another version.
structure GoodCheck (script : Script) (s : Updater) : Prop where
  asks : script.Asks s
  announced : ∃ stale document fileName, script.request.mallocResponseBuffer = some stale ∧
    wholeBody 512 [] (staleBlock stale tlsResponseBufferSize) (fragments script.request.reads) = some document ∧
    Announces document s.client.app.config.currentSoftwareVersion fileName

-- The network and the flash do their part.
def SystemStep.Good (s : System) : SystemStep → Prop
  | .task replies =>
    (s.point = .checkForUpdate → GoodCheck replies.script s.updater) ∧
    (s.point = .downloadImage → ∃ header image, GoodDownload replies.platform replies.script s.updater header image)
  | _ => True

-- A download is due, or a check that comes first.
def System.Due (s : System) : Prop :=
  match s.point with
  | .waitForWifi | .delay | .waitForBits =>
    s.fwupCheckForUpdate = true ∨ s.updater.client.app.fwupDownloadImage = true
  | .waitForWifiAgain bits => bits.fwupCheckForUpdate = true ∨ bits.fwupDownloadImage = true
  | .checkForUpdate | .downloadImage => True
  | .prepareTimer | .changePeriod | .resetTimer | .clearCheckForUpdate => s.updater.client.app.fwupDownloadImage = true
  | .downloadHeldUp | .clearDownloadImage | .checkHeldUp => False

-- The operations of the task before the download.
def TaskPoint.toDownload (fwupDownloadImage : Bool) : TaskPoint → Nat
  | .waitForWifi => if fwupDownloadImage then 4 else 11
  | .delay => if fwupDownloadImage then 3 else 10
  | .waitForBits => if fwupDownloadImage then 2 else 9
  | .waitForWifiAgain bits => if bits.fwupDownloadImage then 1 else 8
  | .checkForUpdate => 7
  | .prepareTimer => 6
  | .changePeriod => 5
  | .resetTimer => 4
  | .clearCheckForUpdate => 3
  | _ => 0

def System.toDownload (s : System) : Nat := s.point.toDownload s.updater.client.app.fwupDownloadImage

-- The requests have the buffer that they were given.
structure Updating (metadataBuffer : Malloc) (s : System) : Prop where
  due : s.Due
  buffer : s.updater.client.app.metadataBuffer = metadataBuffer.map fun stale => staleBlock stale 512

-- The task makes the call of a download.
def SystemStep.Downloads (s : System) (step : SystemStep) : Prop :=
  s.point = .downloadImage ∧ ∃ replies, step = .task replies

section Steps

variable {metadataBuffer : Malloc} {s t : System}

theorem Left.due (h : Left s t) (hs : s.Due) : t.Due := by
  unfold System.Due at *
  rw [h.point, h.updater]
  cases hpoint : s.point <;> simp only [hpoint] at hs ⊢ <;> first
    | exact hs
    | exact hs.imp h.bit id

theorem Left.toDownload (h : Left s t) : t.toDownload = s.toDownload := by
  rw [System.toDownload, h.point, h.updater, System.toDownload]

-- The check sets the download bit.
theorem callCheckForUpdate_updates {script : Script} (hs : Updating metadataBuffer s)
    (hcheck : GoodCheck script s.updater) :
    wp (callCheckForUpdate script)
      (fun _ t => t.point = .prepareTimer ∧ t.updater.client.app.fwupDownloadImage = true) (fun _ _ => False) s := by
  obtain ⟨stale, document, fileName, hstale, hdocument, version, hversion, hfile, hother⟩ := hcheck.announced
  have hasks : script.Asks { s.updater with client.events := [] } :=
    ⟨hcheck.asks.connects, hcheck.asks.accepted, hcheck.asks.writes⟩
  simp only [callCheckForUpdate, wp_bind, wp_get, wp_set, wp_callUpdater]
  apply wp_mono (iapHttpsCheckForUpdate_returns hasks hs.buffer hstale rfl hdocument)
  · intro _ updater hupdater
    refine ⟨trivial, ?_⟩
    rw [hupdater, App.withDocument, hversion, hfile, App.withMetadata_fwupDownloadImage]
    exact Bool.or_eq_true_iff.mpr (.inr (decide_eq_true hother))
  · exact fun _ _ hfalse => hfalse.elim

-- Each other operation of the task is one closer to the download.
theorem iapHttpsTask_approaches {replies : TaskReplies} (hgood : (SystemStep.task replies).Good s)
    (hs : Updating metadataBuffer s) (hpoint : s.point ≠ .downloadImage) :
    wp (iapHttpsTask replies)
      (fun _ t => t.Due ∧ t.toDownload + (if (SystemStep.task replies).goesOn s then 1 else 0) ≤ s.toDownload)
      (fun _ _ => False) s := by
  have hdue := hs.due
  have htick : (if (SystemStep.task replies).goesOn s then 1 else 0) ≤ 1 := by split <;> omega
  have hwaits : replies.wifiConnected ≠ true → s.point.waitsForWifi = true →
      (if (SystemStep.task replies).goesOn s then 1 else 0) = 0 := fun hwifi hwaits => by
    simp [SystemStep.goesOn, hwifi, hwaits]
  generalize (if (SystemStep.task replies).goesOn s then 1 else 0) = tick at htick hwaits ⊢
  unfold System.Due at hdue
  cases hplace : s.point with
  | checkForUpdate =>
      simp only [iapHttpsTask, wp_bind, wp_get, hplace]
      apply wp_mono (callCheckForUpdate_updates hs (hgood.1 hplace))
      · intro _ t ht
        obtain ⟨hnext, hbit⟩ := ht
        simp only [System.Due, System.toDownload, hnext, hplace, TaskPoint.toDownload]
        exact ⟨hbit, by omega⟩
      · exact fun _ _ hfalse => hfalse
  | waitForWifi =>
      rw [hplace] at hdue hwaits
      simp only [iapHttpsTask, wp_bind, wp_get, hplace, wp_ite, wp_set, wp_pure, System.Due, System.toDownload,
        TaskPoint.toDownload]
      refine ⟨fun _ => ⟨hdue, ?_⟩, fun hwifi => ⟨hdue, ?_⟩⟩
      · split <;> omega
      · rw [hwaits hwifi rfl, Nat.add_zero]
  | delay =>
      rw [hplace] at hdue
      simp only [iapHttpsTask, wp_bind, wp_get, hplace, wp_set, System.Due, System.toDownload, TaskPoint.toDownload]
      exact ⟨hdue, by split <;> omega⟩
  | waitForBits =>
      rw [hplace] at hdue
      have hwakes : (s.bits.fwupCheckForUpdate || s.bits.fwupDownloadImage) = true := by
        simpa [System.bits] using hdue
      simp only [iapHttpsTask, wp_bind, wp_get, hplace, hwakes, ite_true, wp_set]
      refine ⟨hdue, ?_⟩
      have hbit : s.bits.fwupDownloadImage = s.updater.client.app.fwupDownloadImage := rfl
      simp only [System.toDownload, hplace, TaskPoint.toDownload, hbit]
      split <;> omega
  | waitForWifiAgain bits =>
      rw [hplace] at hdue hwaits
      simp only [iapHttpsTask, wp_bind, wp_get, hplace, wp_ite, wp_set, wp_pure, System.Due, System.toDownload,
        TaskPoint.toDownload]
      refine ⟨fun _ => ⟨fun hdownload => ⟨trivial, ?_⟩, fun hdownload => ⟨fun _ => ⟨trivial, ?_⟩, fun hcheck => ?_⟩⟩,
        fun hwifi => ⟨hdue, ?_⟩⟩
      · rw [if_pos hdownload]
        omega
      · rw [if_neg hdownload]
        omega
      · exact absurd hdue (by simp [hcheck, hdownload])
      · rw [hwaits hwifi rfl, Nat.add_zero]
  | prepareTimer =>
      rw [hplace] at hdue
      simp only [iapHttpsTask, wp_bind, wp_get, hplace, wp_set]
      cases iapHttpsNeedTimer replies.timer s.updater.client.app.config.pollingIntervalS s.timers with
      | mk timers starts =>
          cases starts with
          | false =>
              refine ⟨hdue, ?_⟩
              simp only [System.toDownload, hplace, TaskPoint.toDownload, Bool.false_eq_true, ite_false]
              omega
          | true =>
              refine ⟨hdue, ?_⟩
              simp only [System.toDownload, hplace, TaskPoint.toDownload, ite_true]
              omega
  | changePeriod =>
      rw [hplace] at hdue
      simp only [iapHttpsTask, wp_bind, wp_get, hplace, wp_set, System.Due, System.toDownload, TaskPoint.toDownload]
      exact ⟨hdue, by omega⟩
  | resetTimer =>
      rw [hplace] at hdue
      simp only [iapHttpsTask, wp_bind, wp_get, hplace, wp_set, System.Due, System.toDownload, TaskPoint.toDownload]
      exact ⟨hdue, by omega⟩
  | clearCheckForUpdate =>
      rw [hplace] at hdue
      simp only [iapHttpsTask, wp_bind, wp_get, hplace, wp_set, System.Due, System.toDownload, TaskPoint.toDownload]
      exact ⟨.inr hdue, by rw [if_pos hdue]; omega⟩
  | downloadImage => exact absurd hplace hpoint
  | downloadHeldUp => simp [hplace] at hdue
  | clearDownloadImage => simp [hplace] at hdue
  | checkHeldUp => simp [hplace] at hdue

theorem system_approaches (metadataBuffer : Malloc) :
    Approaches SystemStep.run (fun s step => step.goesOn s) System.toDownload (fun s step => step.Good s)
      (Updating metadataBuffer) (fun s step => step.Downloads s) where
  lowers step s hgood hs := by
    have hbuffer : wp step.run (fun _ t => t.updater.client.app.metadataBuffer =
        metadataBuffer.map fun stale => staleBlock stale 512) (fun _ _ => True) s :=
      wp_mono (step.setup s) (fun _ _ ht => ht.metadataBuffer.trans hs.buffer) (fun _ _ _ => trivial)
    by_cases htask : ∃ replies, step = .task replies
    · by_cases hpoint : s.point = .downloadImage
      · exact .inl ⟨hpoint, htask⟩
      · obtain ⟨replies, rfl⟩ := htask
        refine .inr (wp_mono (wp_and (iapHttpsTask_approaches hgood hs hpoint) hbuffer) (fun _ t ht => ?_)
          (fun _ _ hfalse => hfalse.1))
        exact ⟨⟨ht.1.1, ht.2⟩, ht.1.2⟩
    · obtain ⟨hleaves, hgoesOn⟩ := SystemStep.leaves (s := s) (not_exists.mp htask)
      refine .inr (wp_mono (wp_and hleaves hbuffer) (fun _ t ht => ⟨⟨ht.1.due hs.due, ht.2⟩, ?_⟩)
        (fun _ _ hfalse => hfalse.1))
      rw [ht.1.toDownload, hgoesOn]
      exact Nat.le_refl _

theorem toDownload_le (s : System) : s.toDownload ≤ 11 := by
  unfold System.toDownload TaskPoint.toDownload
  split <;> (try split) <;> omega

theorem ordered_of_system (partition : Partition) (config : IapHttpsConfig) (metadataBuffer firmwareBuffer : Malloc)
    (timer : TimerReplies) (steps : List SystemStep) :
    wp (run SystemStep.run steps) (fun _ t => Ordered t) (fun _ _ => True)
      (System.start partition config metadataBuffer firmwareBuffer timer) := by
  have hstart : Ordered (System.start partition config metadataBuffer firmwareBuffer timer) := by
    refine ⟨⟨fun h => (by cases h), fun h => ?_⟩, fun _ h => (by cases h), fun h => (by cases h)⟩
    rcases h with h | h <;> cases h
  exact run_invariant SystemStep.run (J := fun _ _ => True)
    (fun step s hs _ => wp_mono (step.ordered hs) (fun _ _ h => h) (fun _ _ _ => trivial)) steps _ hstart
    (along_true SystemStep.run steps _)

end Steps

section Runs

variable {partition : Partition} {config : IapHttpsConfig} {metadataBuffer firmwareBuffer : Malloc}
  {timer : TimerReplies} {earlier : List SystemStep} {s : System}

-- From a check that is asked for, or one that has announced a version, twelve operations of the task
-- that do not wait for the station are enough.
theorem download_comes
    (hrun : run SystemStep.run earlier (System.start partition config metadataBuffer firmwareBuffer timer) = .ok ⟨⟩ s)
    (hdue : s.Due) (steps : List SystemStep) (hgood : Along SystemStep.run (fun s step => step.Good s) steps s)
    (hsteps : 11 < ticks SystemStep.run (fun s step => step.goesOn s) steps s) :
    ∃ before replies after u header image, steps = before ++ .task replies :: after ∧
      run SystemStep.run before s = .ok ⟨⟩ u ∧ u.point = .downloadImage ∧
      GoodDownload replies.platform replies.script u.updater header image := by
  have hsetup : SameSetup (iapHttpsInit partition config metadataBuffer firmwareBuffer).client.app
      s.updater.client.app := wp_ok (x := run SystemStep.run earlier) (system_setup earlier _) hrun
  obtain ⟨before, step, after, u, rfl, hbefore, -, hstep, hpoint, replies, rfl⟩ :=
    (system_approaches metadataBuffer).run_meets steps ⟨hdue, hsetup.metadataBuffer⟩ hgood
      (Nat.lt_of_le_of_lt (toDownload_le s) hsteps)
  obtain ⟨header, image, hdownload⟩ := hstep.2 hpoint
  exact ⟨before, replies, after, u, header, image, rfl, hbefore, hpoint, hdownload⟩

-- The path is the one that the last document has announced, and the image is that of the response.
structure InstallsAnnounced (replies : TaskReplies) (s : System) (image : Bytes) : Prop where
  announced : ∃ document rest, s.documents = document :: rest ∧
    Announces document s.updater.client.app.config.currentSoftwareVersion
      (cstr s.updater.client.app.config.serverFirmwarePath)
  installed : InstalledImage replies.platform s.updater.client.app image
    (final (iapHttpsDownloadImage replies.platform replies.script) s.updater).client.app

theorem installs_announced
    (hrun : run SystemStep.run earlier (System.start partition config metadataBuffer firmwareBuffer timer) = .ok ⟨⟩ s)
    (hpoint : s.point = .downloadImage) {replies : TaskReplies} {header image : Bytes}
    (hdownload : GoodDownload replies.platform replies.script s.updater header image) :
    InstallsAnnounced replies s image := by
  have hsetup : SameSetup (iapHttpsInit partition config metadataBuffer firmwareBuffer).client.app
      s.updater.client.app := wp_ok (x := run SystemStep.run earlier) (system_setup earlier _) hrun
  have hready : ¬s.point.heldUp = true → Ready s.updater.client.app := wp_ok (x := run SystemStep.run earlier)
    (ready_of_system partition config metadataBuffer firmwareBuffer timer earlier) hrun
  have hordered : Ordered s := wp_ok (x := run SystemStep.run earlier)
    (ordered_of_system partition config metadataBuffer firmwareBuffer timer earlier) hrun
  refine ⟨hordered.announced (hordered.requested (.inl hpoint)), ?_⟩
  exact final_of_wp (P := fun t : Updater => InstalledImage replies.platform s.updater.client.app image t.client.app)
    (iapHttpsDownloadImage_installs (hready (by rw [hpoint]; exact Bool.false_ne_true)) hsetup.firmwareBuffer
      hdownload)

end Runs

-- After any history of the module, among any callers and timers.
theorem update_installs (partition : Partition) (config : IapHttpsConfig) (metadataBuffer firmwareBuffer : Malloc)
    (timer : TimerReplies) (earlier : List SystemStep) {s : System}
    (hrun : run SystemStep.run earlier (System.start partition config metadataBuffer firmwareBuffer timer) = .ok ⟨⟩ s)
    (hdue : s.Due) (steps : List SystemStep) (hgood : Along SystemStep.run (fun s step => step.Good s) steps s)
    (hsteps : 11 < ticks SystemStep.run (fun s step => step.goesOn s) steps s) :
    ∃ before replies after u image, steps = before ++ .task replies :: after ∧
      run SystemStep.run before s = .ok ⟨⟩ u ∧ u.point = .downloadImage ∧ InstallsAnnounced replies u image ∧
      ∃ header, GoodDownload replies.platform replies.script u.updater header image := by
  obtain ⟨before, replies, after, u, header, image, hsplit, hbefore, hpoint, hdownload⟩ :=
    download_comes hrun hdue steps hgood hsteps
  have hinstalls := installs_announced (run_append_ok SystemStep.run hrun hbefore) hpoint hdownload
  exact ⟨before, replies, after, u, image, hsplit, hbefore, hpoint, hinstalls, header, hdownload⟩

-- The server answers every request with the same document, so that the image is the document itself.
def exampleAnnouncement : Bytes := ascii "VERSION=2\nFILE=/ota.bin"

def exampleAnswerHeader : Bytes := ascii "HTTP/1.1 200 OK\r\nContent-Length: 23\r\n\r\n"

def exampleAnswer : Fragment := ⟨exampleAnswerHeader ++ exampleAnnouncement, by decide⟩

def exampleServer : TaskReplies :=
  ⟨true, exampleScript exampleConnect [.data exampleAnswer], fun _ => exampleFirmwareReplies ⟨ESP_OK, ESP_OK, ESP_OK⟩,
    ⟨true, true, true, true⟩⟩

def exampleUpdateTask : SystemStep := .task exampleServer

-- What the replies are good for.
@[mk_iff]
structure ExampleServes (s : System) : Prop where
  version : s.updater.client.app.config.currentSoftwareVersion = 1
  host : s.updater.client.app.config.serverHostName = ascii "www.classycode.io"
  metadataPath : cstr s.updater.client.app.config.serverMetadataPath = ascii "/ota.txt"
  firmwarePath : s.point = .downloadImage → cstr s.updater.client.app.config.serverFirmwarePath = ascii "/ota.bin"
  metadataBuffer : s.updater.client.app.metadataBuffer.isSome = true
  firmwareBuffer : s.updater.client.app.firmwareBuffer.isSome = true
  boot : s.updater.client.app.device.bootPartition = ⟨"factory", 0x10000⟩

instance (s : System) : Decidable (ExampleServes s) := decidable_of_iff _ (exampleServes_iff s).symm

theorem exampleAnswer_answers :
    GoodResponse (exampleScript exampleConnect [.data exampleAnswer]).request exampleAnswerHeader
      exampleAnnouncement := by
  refine ⟨⟨by decide, by decide, 49, ascii " OK\r\nContent-Length: 23\r\n\r\n", by decide, by simp [ascii, isDigit],
    by decide⟩, by decide +kernel, by decide, by decide, fun stale _ => ?_, by decide⟩
  exact keepsBody_of_first rfl (by decide) (by decide) (by decide)

theorem exampleUpdateTask_good {s : System} (h : ExampleServes s) : exampleUpdateTask.Good s := by
  refine ⟨fun _ => ⟨exampleScript_asks _ h.metadataBuffer h.host h.metadataPath, fun _ => 0, ?_⟩, fun hpoint =>
    ⟨exampleAnswerHeader, exampleAnnouncement, exampleScript_downloads h.firmwareBuffer h.host (h.firmwarePath hpoint)
      h.boot exampleAnswer_answers⟩⟩
  refine ⟨_, ascii "/ota.bin", rfl, (Option.some_get (by decide +kernel)).symm, 2, by decide +kernel,
    by decide +kernel, ?_⟩
  rw [h.version]
  decide

-- From `iap_https_check_now` to the flash.
theorem exampleUpdate_installs : ∃ s,
    run SystemStep.run [.checkNow, .checkNowSets] (System.start ⟨"factory", 0x10000⟩ (exampleConfig false)
      (some fun _ => 0) (some fun _ => 0) ⟨true, true, true, true⟩) = .ok ⟨⟩ s ∧
    ∃ before replies after u image, List.replicate 12 exampleUpdateTask = before ++ .task replies :: after ∧
      run SystemStep.run before s = .ok ⟨⟩ u ∧ u.point = .downloadImage ∧ InstallsAnnounced replies u image ∧
      ∃ header, GoodDownload replies.platform replies.script u.updater header image := by
  obtain ⟨_, s, hrun, hpoint, hbit, halong, hsteps⟩ := exists_ok_of_wp
    (x := run SystemStep.run [.checkNow, .checkNowSets])
    (s := System.start ⟨"factory", 0x10000⟩ (exampleConfig false) (some fun _ => 0) (some fun _ => 0)
      ⟨true, true, true, true⟩)
    (Q := fun _ s => s.point = .waitForWifi ∧ s.fwupCheckForUpdate = true ∧
      Along SystemStep.run (fun s _ => ExampleServes s) (List.replicate 12 exampleUpdateTask) s ∧
      11 < ticks SystemStep.run (fun s step => step.goesOn s) (List.replicate 12 exampleUpdateTask) s)
    (by decide +kernel)
  have hgood : Along SystemStep.run (fun s step => step.Good s) (List.replicate 12 exampleUpdateTask) s := by
    refine along_mono SystemStep.run (fun t step ht => ?_) _ (along_and SystemStep.run _ s halong
      (along_of_forall SystemStep.run _ s fun step hstep => List.eq_of_mem_replicate hstep))
    rw [ht.2]
    exact exampleUpdateTask_good ht.1
  have hdue : s.Due := by
    unfold System.Due
    rw [hpoint]
    exact .inl hbit
  exact ⟨s, hrun, update_installs ⟨"factory", 0x10000⟩ (exampleConfig false) (some fun _ => 0) (some fun _ => 0)
    ⟨true, true, true, true⟩ [.checkNow, .checkNowSets] hrun hdue _ hgood hsteps⟩

end Esp32Ota
