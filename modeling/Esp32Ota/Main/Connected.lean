import Esp32Ota.WifiSta.Init
import Esp32Ota.Main

-- The connected flag follows the events of the station, whatever the other tasks do.
namespace Esp32Ota

open CLib Halting

-- The station has had an address since it was disconnected last.
def hasAddress : List SystemEvent → Bool
  | [] => false
  | .staGotIp :: _ => true
  | .staDisconnected :: _ => false
  | _ :: events => hasAddress events

theorem gotIp_of_hasAddress {events : List SystemEvent} (h : hasAddress events = true) : .staGotIp ∈ events := by
  induction events with
  | nil => cases h
  | cons event events ih =>
      cases event with
      | staGotIp => exact List.mem_cons_self
      | staDisconnected => cases h
      | _ => exact List.mem_cons_of_mem _ (ih h)

-- The events that are answered with `esp_wifi_connect`.
def SystemEvent.reconnects : SystemEvent → Bool
  | .staStart | .staDisconnected => true
  | _ => false

def StaCall.isConnect : StaCall → Bool
  | .connect _ => true
  | _ => false

-- Whether the handler still has to call `esp_wifi_connect`.
def HandlerPoint.willConnect : HandlerPoint → Bool
  | .waiting => false
  | .isConnected c => !c
  | .setConnected c => !c
  | .wifiConnect => true

-- The handler changes the flag between the event and its end.
def FlagShows (events : List SystemEvent) (connected : Bool) : HandlerPoint → Prop
  | .waiting | .wifiConnect => connected = hasAddress events
  | .isConnected c | .setConnected c => c = hasAddress events ∧ connected = hasAddress events.tail

structure Tracks (s : Esp32) : Prop where
  flag : FlagShows s.events s.connected s.handler
  connects : s.station.calls.countP StaCall.isConnect + (if s.handler.willConnect then 1 else 0) =
    s.events.countP SystemEvent.reconnects
  quiet : s.main = .initWifi → s.events = [] ∧ s.handler = .waiting ∧ s.station.started = false

section Frame

variable {s t : Esp32} {x : SystemM Unit} {Q : PUnit → Esp32 → Prop} {E : Halt → Esp32 → Prop}

theorem wp_onUpdater_some {updater : System} (h : s.updater = some updater) :
    wp (onUpdater x) Q E s ↔
      wp x (fun _ t => Q ⟨⟩ { s with updater := some t }) (fun e t => E e { s with updater := some t }) updater := by
  simp only [wp, onUpdater, h]
  cases x updater <;> rfl

theorem wp_onUpdater_none (h : s.updater = none) : wp (onUpdater x) Q E s ↔ Q ⟨⟩ s := by
  simp only [wp, onUpdater, h]

-- The module is all that its steps change.
theorem wp_onUpdater_of_forall (hQ : ∀ updater, Q ⟨⟩ { s with updater })
    (hE : ∀ e updater, E e { s with updater }) : wp (onUpdater x) Q E s := by
  cases h : s.updater with
  | none =>
      have hsame : { s with updater := none } = s := by rw [← h]
      exact (wp_onUpdater_none h).mpr (hsame ▸ hQ none)
  | some updater =>
      exact (wp_onUpdater_some h).mpr (wp_of_forall (fun _ t => hQ (some t)) (fun e t => hE e (some t)))

theorem Tracks.moves (h : Tracks s) (hstation : t.station = s.station) (hhandler : t.handler = s.handler)
    (hevents : t.events = s.events) (hmain : t.main = .initWifi → s.main = .initWifi) : Tracks t := by
  obtain ⟨hflag, hconnects, hquiet⟩ := h
  have hconnected : t.connected = s.connected := by rw [Esp32.connected, hstation, Esp32.connected]
  refine ⟨?_, ?_, fun h => ?_⟩
  · rwa [hevents, hconnected, hhandler]
  · rwa [hstation, hhandler, hevents]
  · rw [hevents, hhandler, hstation]
    exact hquiet (hmain h)

-- The event task changes the station and its own place, and adds to the events.
structure ByEventTask (s t : Esp32) : Prop where
  main : t.main = s.main
  updater : t.updater = s.updater
  flashes : t.flashes = s.flashes
  events : s.events ⊆ t.events

theorem appEventHandler_frame (event : SystemEvent) :
    wp (appEventHandler event) (fun _ t => ByEventTask s t) (fun _ _ => False) s := by
  simp only [appEventHandler, wp_modify]
  split
  · exact ⟨rfl, rfl, rfl, List.subset_cons_self _ _⟩
  · exact ⟨rfl, rfl, rfl, List.Subset.refl _⟩

theorem handlerGoesOn_frame (connect : EspErr) :
    wp (handlerGoesOn connect) (fun _ t => ByEventTask s t) (fun _ t => ByEventTask s t) s := by
  simp only [handlerGoesOn, onStation, wp_bind, wp_get, wp_zoom, wp_modify]
  exact wp_of_forall (fun _ _ => ⟨rfl, rfl, rfl, List.Subset.refl _⟩) (fun _ _ => ⟨rfl, rfl, rfl, List.Subset.refl _⟩)

-- The wait of the task needs the event group, and the rest is the operation of the updater.
theorem wp_updaterTask {replies : TaskReplies}
    (h : wp (onUpdater (iapHttpsTask { replies with wifiConnected := s.connected })) Q E s)
    (hmissing : s.station.eventGroup = none → E .undefined s) : wp (updaterTask replies) Q E s := by
  simp only [updaterTask, wp_bind, wp_get, wp_ite]
  refine ⟨fun _ => ?_, fun _ => h⟩
  simp only [onStation, wp_zoom, wifiStaIsConnected, wp_bind, wp_get]
  cases hgroup : s.station.eventGroup with
  | none => exact hmissing hgroup
  | some connected => exact h

end Frame

section Main

variable {s : Esp32}

theorem not_connect_of_configure {networkSsid networkPassword : Bytes} {replies : StationReplies} {t : Station}
    {call : StaCall} (h : call ∈ t.configureCalls networkSsid networkPassword replies) :
    call.isConnect = false ∧ ∀ result, call ≠ .start result := by
  simp only [Station.configureCalls, driverCalls, List.mem_append, List.mem_cons, List.not_mem_nil, or_false] at h
  rcases h with (rfl | rfl | rfl | rfl) | rfl <;> exact ⟨rfl, fun _ => by simp⟩

-- The group starts with a clear flag, and nothing of the configuration connects or starts the driver.
theorem wifiStaConfigure_quiet (networkSsid networkPassword : Bytes) (replies : StationReplies) (t : Station) :
    wp (wifiStaConfigure networkSsid networkPassword replies)
      (fun _ v => (v.eventGroup = some true → t.eventGroup = some true) ∧
        v.calls.countP StaCall.isConnect = t.calls.countP StaCall.isConnect ∧ v.started = t.started)
      (fun _ _ => False) t := by
  by_cases hfits : t.Fits networkSsid networkPassword
  · apply wp_mono (wifiStaConfigure_makes hfits)
    · intro result v hpost
      obtain ⟨⟨hmade, -⟩, hfailed, hok⟩ := hpost
      have hnone : ∀ call ∈ madeCalls (t.configureCalls networkSsid networkPassword replies),
          call.isConnect = false ∧ ∀ result, call ≠ .start result :=
        fun call hcall => not_connect_of_configure (mem_of_madeCalls hcall)
      refine ⟨fun hset => ?_, ?_, ?_⟩
      · by_cases hresult : result = ESP_OK
        · rw [(hok hresult).2] at hset
          split at hset <;> cases hset
        · rwa [← hfailed hresult]
      · rw [hmade, List.countP_append, List.countP_reverse, List.countP_eq_zero.mpr, Nat.zero_add]
        intro call hcall
        rw [(hnone call hcall).1]
        exact Bool.false_ne_true
      · rw [Bool.eq_iff_iff, Station.started, Station.started, List.contains_iff_mem, List.contains_iff_mem, hmade,
          List.mem_append, List.mem_reverse, or_iff_right]
        exact fun hstart => (hnone _ hstart).2 _ rfl
    · exact fun _ _ hfalse => hfalse
  · apply wp_mono (wifiStaConfigure_refuses hfits)
    · intro _ v hpost
      rw [hpost.2]
      exact ⟨id, rfl, rfl⟩
    · exact fun _ _ hfalse => hfalse

theorem appMain_tracks (boot : Boot) (hasSession : Bool) (hs : Tracks s) :
    wp (appMain boot hasSession) (fun _ t => Tracks t) (fun _ t => Tracks t) s := by
  unfold appMain
  rw [wp_bind, wp_get]
  cases hmain : s.main with
  | initWifi =>
      obtain ⟨hevents, hhandler, hstarted⟩ := hs.quiet hmain
      have hflag := hs.flag
      have hconnects := hs.connects
      rw [hevents, hhandler] at hflag hconnects
      simp only [onStation, wp_bind, wp_zoom]
      apply wp_mono (wifiStaConfigure_quiet _ _ _ s.station)
      · intro result station hpost
        obtain ⟨hgroup, hcalls, -⟩ := hpost
        refine ⟨?_, ?_, fun h => ?_⟩
        · show FlagShows s.events _ s.handler
          rw [hevents, hhandler]
          simp only [FlagShows, Esp32.connected, hasAddress, decide_eq_false_iff_not] at hflag ⊢
          exact fun h => hflag (hgroup h)
        · show station.calls.countP StaCall.isConnect + (if s.handler.willConnect then 1 else 0) =
            s.events.countP SystemEvent.reconnects
          rw [hcalls, hevents, hhandler]
          exact hconnects
        · simp only at h
          split at h <;> cases h
      · exact fun _ _ hfalse => hfalse.elim
  | startWifi =>
      simp only [onStation, wp_bind, wp_zoom, staCall, wp_modify, wp_pure]
      refine ⟨?_, ?_, fun h => by cases h⟩
      · exact hs.flag
      · simpa only [List.countP_cons, StaCall.isConnect, Bool.false_eq_true, ite_false, Nat.add_zero]
          using hs.connects
  | initOta => exact hs.moves rfl rfl rfl (fun h => by cases h)
  | checkNow =>
      rw [wp_bind]
      apply wp_onUpdater_of_forall
      · intro updater
        refine hs.moves rfl rfl rfl fun h => ?_
        simp only at h
        split at h <;> cases h
      · exact fun _ updater => hs.moves rfl rfl rfl id
  | checkNowSets =>
      rw [wp_bind]
      apply wp_onUpdater_of_forall
      · exact fun updater => hs.moves rfl rfl rfl (fun h => by cases h)
      · exact fun _ updater => hs.moves rfl rfl rfl id
  | isConnected =>
      simp only [onStation, wp_bind, wp_zoom, wifiStaIsConnected, wp_get]
      cases s.station.eventGroup with
      | none => exact hs.moves rfl rfl rfl id
      | some connected => exact hs.moves rfl rfl rfl (fun h => by cases h)
  | updateInProgress nofFlashes => exact hs.moves rfl rfl rfl (fun h => by cases h)
  | flash nofFlashes => exact hs.moves rfl rfl rfl (fun h => by cases h)

theorem appEventHandler_tracks (event : SystemEvent) (hs : Tracks s) :
    wp (appEventHandler event) (fun _ t => Tracks t) (fun _ t => Tracks t) s := by
  simp only [appEventHandler, wp_modify]
  by_cases hready : s.station.started ∧ s.handler = .waiting
  · obtain ⟨hstarted, hwaiting⟩ := hready
    rw [if_pos ⟨hstarted, hwaiting⟩]
    obtain ⟨hflag, hconnects, hquiet⟩ := hs
    rw [hwaiting] at hflag hconnects
    refine ⟨?_, ?_, fun hmain => ?_⟩
    · cases event <;>
        simp_all [wifiStaHandleEvent, FlagShows, hasAddress, Esp32.connected]
    · rw [List.countP_cons, ← hconnects]
      cases event <;> rfl
    · rw [(hquiet hmain).2.2] at hstarted
      cases hstarted
  · rw [if_neg hready]
    exact hs

-- A flag that is as the event has it stays so behind the call.
theorem flagShows_after {events : List SystemEvent} {c : Bool} (h : c = hasAddress events) :
    FlagShows events (some c = some true) (afterSetConnected c) := by
  cases c with
  | false => simpa [afterSetConnected, FlagShows] using h
  | true => simpa [afterSetConnected, FlagShows] using h

-- What a step of the handler does to the flag and the calls.
theorem wifiStaHandlerStep_shows (connect : EspErr) {point : HandlerPoint} {events : List SystemEvent} {n : Nat}
    {t : Station} (hflag : FlagShows events (t.eventGroup = some true) point)
    (hconnects : t.calls.countP StaCall.isConnect + (if point.willConnect then 1 else 0) = n) :
    wp (wifiStaHandlerStep connect point)
      (fun next v => FlagShows events (v.eventGroup = some true) next ∧
        v.calls.countP StaCall.isConnect + (if next.willConnect then 1 else 0) = n ∧
        (point = .waiting → next = .waiting ∧ v = t))
      (fun _ v => v = t) t := by
  cases point with
  | waiting => exact ⟨hflag, hconnects, fun _ => ⟨rfl, rfl⟩⟩
  | isConnected c =>
      obtain ⟨hc, hbefore⟩ := hflag
      simp only [wifiStaHandlerStep, wifiStaIsConnected, wp_bind, wp_get]
      cases hgroup : t.eventGroup with
      | none => rfl
      | some connected =>
          rw [hgroup] at hbefore
          simp only [wp_pure, wp_ite, hgroup]
          refine ⟨fun hsame => ⟨?_, ?_, fun h => by cases h⟩, fun _ => ⟨⟨hc, hbefore⟩, hconnects, fun h => by cases h⟩⟩
          · subst hsame
            exact flagShows_after hc
          · cases c <;> exact hconnects
  | setConnected c =>
      obtain ⟨hc, -⟩ := hflag
      simp only [wifiStaHandlerStep, setConnectedFlag, wp_bind, wp_get]
      cases hgroup : t.eventGroup with
      | none => rfl
      | some connected =>
          simp only [wp_modify, wp_pure]
          refine ⟨?_, ?_, fun h => by cases h⟩
          · exact flagShows_after hc
          · cases c <;> exact hconnects
  | wifiConnect =>
      simp only [wifiStaHandlerStep, staCall, wp_bind, wp_modify, wp_pure]
      refine ⟨hflag, ?_, fun h => by cases h⟩
      rw [List.countP_cons, ← hconnects]
      rfl

-- A step of the handler brings the flag closer to the event, or answers it.
theorem handlerGoesOn_tracks (connect : EspErr) (hs : Tracks s) :
    wp (handlerGoesOn connect) (fun _ t => Tracks t) (fun _ t => Tracks t) s := by
  obtain ⟨hflag, hconnects, hquiet⟩ := hs
  simp only [handlerGoesOn, onStation, wp_bind, wp_get, wp_zoom]
  apply wp_mono (wifiStaHandlerStep_shows connect hflag hconnects)
  · intro handler station hpost
    obtain ⟨hshows, hcalls, hwaiting⟩ := hpost
    refine ⟨hshows, hcalls, fun hmain => ?_⟩
    obtain ⟨hevents, hhandler, hstarted⟩ := hquiet hmain
    obtain ⟨rfl, rfl⟩ := hwaiting hhandler
    exact ⟨hevents, rfl, hstarted⟩
  · intro _ station hsame
    subst hsame
    exact ⟨hflag, hconnects, hquiet⟩

theorem Esp32Step.tracks (boot : Boot) (step : Esp32Step) (hs : Tracks s) :
    wp (step.run boot) (fun _ t => Tracks t) (fun _ t => Tracks t) s := by
  have hupdater : ∀ x, wp (onUpdater x) (fun _ t => Tracks t) (fun _ t => Tracks t) s := fun x =>
    wp_onUpdater_of_forall (fun _ => hs.moves rfl rfl rfl id) (fun _ _ => hs.moves rfl rfl rfl id)
  cases step with
  | main hasSession => exact appMain_tracks boot hasSession hs
  | event event => exact appEventHandler_tracks event hs
  | handler connect => exact handlerGoesOn_tracks connect hs
  | task replies =>
      simp only [Esp32Step.run, updaterTask, wp_bind, wp_get, wp_ite]
      refine ⟨fun _ => ?_, fun _ => hupdater _⟩
      simp only [onStation, wp_zoom, wifiStaIsConnected, wp_bind, wp_get]
      cases s.station.eventGroup with
      | none => exact hs.moves rfl rfl rfl id
      | some _ => exact hupdater _
  | timerExpires => exact hupdater _
  | undeletedTimerExpires => exact hupdater _

-- The flag is that of the events, or that of the events before the latest one.
theorem Tracks.shown (hs : Tracks s) :
    s.connected = hasAddress s.events ∨ s.connected = hasAddress s.events.tail := by
  obtain ⟨hflag, -, -⟩ := hs
  cases hpoint : s.handler <;> rw [hpoint] at hflag
  · exact .inl hflag
  · exact .inr hflag.2
  · exact .inr hflag.2
  · exact .inl hflag

theorem Tracks.gotIp (hs : Tracks s) (h : s.connected = true) : .staGotIp ∈ s.events := by
  have hshown := hs.shown
  rw [h] at hshown
  rcases hshown with hevents | htail
  · exact gotIp_of_hasAddress hevents.symm
  · exact List.mem_of_mem_tail (gotIp_of_hasAddress htail.symm)

theorem tracks_powerOn : Tracks Esp32.powerOn := ⟨rfl, rfl, fun _ => ⟨rfl, rfl, rfl⟩⟩

end Main

-- Between two events the flag and the calls are those of the events taken, and the handler is never
-- further behind than the event in work.
structure FollowsEvents (s : Esp32) : Prop where
  between : s.handler = .waiting → s.connected = hasAddress s.events ∧
    s.station.calls.countP StaCall.isConnect = s.events.countP SystemEvent.reconnects
  flag : s.connected = hasAddress s.events ∨ s.connected = hasAddress s.events.tail
  caused : s.station.calls.countP StaCall.isConnect ≤ s.events.countP SystemEvent.reconnects
  answered : s.events.countP SystemEvent.reconnects ≤ s.station.calls.countP StaCall.isConnect + 1

-- The flag is that of the events taken, up to the event in work, and every start of the station
-- and every loss of the connection is answered with one `esp_wifi_connect`.
theorem connected_follows_events (boot : Boot) (steps : List Esp32Step) :
    wp (run (Esp32Step.run boot) steps) (fun _ t => FollowsEvents t) (fun _ t => FollowsEvents t) Esp32.powerOn := by
  have hrun := run_invariant (Esp32Step.run boot) (P := fun _ _ => True) (J := fun _ t => Tracks t)
    (fun step _ hs _ => step.tracks boot hs) steps Esp32.powerOn tracks_powerOn (along_true _ _ _)
  refine wp_weaken hrun fun t ht => ?_
  have hflag := ht.flag
  have hconnects := ht.connects
  refine ⟨fun hwaiting => ?_, ?_, ?_, ?_⟩
  · rw [hwaiting] at hflag hconnects
    exact ⟨hflag, hconnects⟩
  · exact ht.shown
  · omega
  · split at hconnects <;> omega

section Untouched

-- Nothing has happened to the updater since it was made.
def Untouched (boot : Boot) (s : Esp32) : Prop :=
  ∀ system ∈ s.updater, system.updater = boot.system.updater ∧ system.point = .waitForWifi

variable {boot : Boot} {s : Esp32}

-- A task that waits for the station, and finds it without an address, goes on waiting.
theorem iapHttpsTask_waits (replies : TaskReplies) {system : System} (hpoint : system.point = .waitForWifi)
    (hwifi : replies.wifiConnected = false) :
    wp (iapHttpsTask replies) (fun _ t => t = system) (fun _ _ => False) system := by
  simp only [iapHttpsTask, wp_bind, wp_get, hpoint, hwifi, Bool.false_eq_true, ite_false, wp_pure]

theorem Untouched.leaves {x : SystemM Unit} (hx : LeavesTask x) (hs : Untouched boot s) :
    wp (onUpdater x) (fun _ t => Untouched boot t) (fun _ t => Untouched boot t) s := by
  cases h : s.updater with
  | none => exact (wp_onUpdater_none h).mpr hs
  | some system =>
      rw [wp_onUpdater_some h]
      obtain ⟨hmodule, hpoint⟩ := hs system h
      apply wp_mono (hx system)
      · intro _ t ht other hother
        cases hother
        exact ⟨ht.updater.trans hmodule, ht.point.trans hpoint⟩
      · exact fun _ _ hfalse => hfalse.elim

theorem Untouched.of_updater {t : Esp32} (hs : Untouched boot s) (h : t.updater = s.updater) : Untouched boot t := by
  unfold Untouched
  rwa [h]

theorem appMain_untouched (hasSession : Bool) (hs : Untouched boot s) :
    wp (appMain boot hasSession) (fun _ t => Untouched boot t) (fun _ t => Untouched boot t) s := by
  unfold appMain
  rw [wp_bind, wp_get]
  cases s.main with
  | initWifi =>
      simp only [onStation, wp_bind, wp_zoom]
      exact wp_of_forall (fun _ _ => hs.of_updater rfl) (fun _ _ => hs.of_updater rfl)
  | startWifi => exact hs.of_updater rfl
  | initOta =>
      intro system hsystem
      cases hsystem
      exact ⟨rfl, rfl⟩
  | checkNow =>
      rw [wp_bind]
      exact wp_mono (hs.leaves iapHttpsTriggerProcessing_leaves) (fun _ _ h => h.of_updater rfl) (fun _ _ h => h)
  | checkNowSets =>
      rw [wp_bind]
      exact wp_mono (hs.leaves iapHttpsTriggerSet_leaves) (fun _ _ h => h.of_updater rfl) (fun _ _ h => h)
  | isConnected =>
      simp only [onStation, wp_bind, wp_zoom]
      exact wp_of_forall (fun _ _ => hs.of_updater rfl) (fun _ _ => hs.of_updater rfl)
  | updateInProgress _ => exact hs.of_updater rfl
  | flash _ => exact hs.of_updater rfl

-- A task that passes the wait has found the flag set.
theorem updaterTask_untouched (replies : TaskReplies) (htracks : Tracks s) (hs : Untouched boot s) :
    wp (updaterTask replies) (fun _ t => .staGotIp ∈ t.events ∨ Untouched boot t)
      (fun _ t => .staGotIp ∈ t.events ∨ Untouched boot t) s := by
  have hupdater : wp (onUpdater (iapHttpsTask { replies with wifiConnected := s.connected }))
      (fun _ t => .staGotIp ∈ t.events ∨ Untouched boot t) (fun _ t => .staGotIp ∈ t.events ∨ Untouched boot t) s := by
    cases hconnected : s.connected with
    | true =>
        have hgotIp := htracks.gotIp hconnected
        exact wp_onUpdater_of_forall (fun _ => .inl hgotIp) (fun _ _ => .inl hgotIp)
    | false =>
        cases hsystem : s.updater with
        | none => exact (wp_onUpdater_none hsystem).mpr (.inr hs)
        | some system =>
            rw [wp_onUpdater_some hsystem]
            apply wp_mono (iapHttpsTask_waits _ (hs system hsystem).2 rfl)
            · intro _ t ht
              subst ht
              exact .inr (hs.of_updater hsystem.symm)
            · exact fun _ _ hfalse => hfalse.elim
  exact wp_updaterTask hupdater fun _ => .inr hs

-- No step takes back an event.
theorem Esp32Step.keeps_events (step : Esp32Step) {event : SystemEvent} (h : event ∈ s.events) :
    wp (step.run boot) (fun _ t => event ∈ t.events) (fun _ t => event ∈ t.events) s := by
  have hupdater : ∀ x, wp (onUpdater x) (fun _ t => event ∈ t.events) (fun _ t => event ∈ t.events) s :=
    fun x => wp_onUpdater_of_forall (fun _ => h) (fun _ _ => h)
  have hstation : ∀ {α : Type} (x : StationM α),
      wp (onStation x) (fun _ t => event ∈ t.events) (fun _ t => event ∈ t.events) s := fun x => by
    rw [onStation, wp_zoom]
    exact wp_of_forall (fun _ _ => h) (fun _ _ => h)
  cases step with
  | main hasSession =>
      simp only [Esp32Step.run, appMain, wp_bind, wp_get]
      cases s.main with
      | initWifi =>
          rw [wp_bind]
          exact hstation _
      | startWifi => exact h
      | initOta => exact h
      | checkNow =>
          rw [wp_bind]
          exact hupdater _
      | checkNowSets =>
          rw [wp_bind]
          exact hupdater _
      | isConnected =>
          rw [wp_bind]
          exact hstation _
      | updateInProgress _ => exact h
      | flash _ => exact h
  | event e => exact wp_mono (appEventHandler_frame e) (fun _ _ ht => ht.events h) (fun _ _ hfalse => hfalse.elim)
  | handler connect => exact wp_weaken (handlerGoesOn_frame connect) fun _ ht => ht.events h
  | task replies => exact wp_updaterTask (hupdater _) fun _ => h
  | timerExpires => exact hupdater _
  | undeletedTimerExpires => exact hupdater _

theorem Esp32Step.untouched (step : Esp32Step) (htracks : Tracks s) (hs : .staGotIp ∈ s.events ∨ Untouched boot s) :
    wp (step.run boot) (fun _ t => .staGotIp ∈ t.events ∨ Untouched boot t)
      (fun _ t => .staGotIp ∈ t.events ∨ Untouched boot t) s := by
  rcases hs with hgotIp | hs
  · exact wp_weaken (step.keeps_events hgotIp) fun _ => .inl
  · cases step with
    | main hasSession => exact wp_weaken (appMain_untouched hasSession hs) fun _ => .inr
    | event e =>
        exact wp_mono (appEventHandler_frame e) (fun _ _ ht => .inr (hs.of_updater ht.updater))
          (fun _ _ hfalse => hfalse.elim)
    | handler connect => exact wp_weaken (handlerGoesOn_frame connect) fun _ ht => .inr (hs.of_updater ht.updater)
    | task replies => exact updaterTask_untouched replies htracks hs
    | timerExpires => exact wp_weaken (hs.leaves timerExpires_leaves) fun _ => .inr
    | undeletedTimerExpires => exact wp_weaken (hs.leaves undeletedTimerExpires_leaves) fun _ => .inr

-- Before the station has had an address there is no check and no download: the module is as
-- `iap_https_init` has made it, however the application has come up.
theorem untouched_before_address (boot : Boot) (steps : List Esp32Step) :
    wp (run (Esp32Step.run boot) steps) (fun _ t => .staGotIp ∈ t.events ∨ Untouched boot t)
      (fun _ t => .staGotIp ∈ t.events ∨ Untouched boot t) Esp32.powerOn := by
  have hstep : ∀ (step : Esp32Step) (s : Esp32), Tracks s ∧ (.staGotIp ∈ s.events ∨ Untouched boot s) → True →
      wp (step.run boot) (fun _ t => Tracks t ∧ (.staGotIp ∈ t.events ∨ Untouched boot t))
        (fun _ t => Tracks t ∧ (.staGotIp ∈ t.events ∨ Untouched boot t)) s :=
    fun step s hs _ => wp_and (step.tracks boot hs.1) (step.untouched hs.1 hs.2)
  have hstart : Untouched boot Esp32.powerOn := fun _ h => by cases h
  exact wp_weaken (run_invariant (Esp32Step.run boot) hstep steps Esp32.powerOn
    ⟨tracks_powerOn, .inr hstart⟩ (along_true _ _ _)) fun _ h => h.2

end Untouched

end Esp32Ota
