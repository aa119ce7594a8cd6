import Esp32Ota.WifiSta

-- `wifi_sta_init` makes its calls in order, up to the first one that fails.
namespace Esp32Ota

open CLib Halting

def StaCall.result : StaCall → EspErr
  | .tcpipAdapterInit => ESP_OK
  | .wifiInit result => result
  | .setStorage result => result
  | .setMode result => result
  | .setConfig _ result => result
  | .start result => result
  | .connect result => result

-- The calls that are made of a sequence that stops at its first failure.
def madeCalls : List StaCall → List StaCall
  | [] => []
  | call :: calls => if call.result = ESP_OK then call :: madeCalls calls else [call]

-- The first failure, if there is one.
def callsResult : List StaCall → EspErr
  | [] => ESP_OK
  | call :: calls => if call.result = ESP_OK then callsResult calls else call.result

theorem madeCalls_append_of_ok {calls : List StaCall} (h : callsResult calls = ESP_OK) (more : List StaCall) :
    madeCalls (calls ++ more) = calls ++ madeCalls more ∧ callsResult (calls ++ more) = callsResult more := by
  induction calls with
  | nil => exact ⟨rfl, rfl⟩
  | cons call calls ih =>
      by_cases hcall : call.result = ESP_OK
      · rw [callsResult, if_pos hcall] at h
        obtain ⟨hmade, hresult⟩ := ih h
        simp only [List.cons_append, madeCalls, callsResult, if_pos hcall, hmade, hresult, and_self]
      · rw [callsResult, if_neg hcall] at h
        exact absurd h hcall

theorem madeCalls_append_of_failed {calls : List StaCall} (h : callsResult calls ≠ ESP_OK) (more : List StaCall) :
    madeCalls (calls ++ more) = madeCalls calls ∧ callsResult (calls ++ more) = callsResult calls := by
  induction calls with
  | nil => exact absurd rfl h
  | cons call calls ih =>
      by_cases hcall : call.result = ESP_OK
      · rw [callsResult, if_pos hcall] at h
        obtain ⟨hmade, hresult⟩ := ih h
        simp only [List.cons_append, madeCalls, callsResult, if_pos hcall, hmade, hresult, and_self]
      · simp only [List.cons_append, madeCalls, callsResult, if_neg hcall, and_self]

theorem mem_of_madeCalls {call : StaCall} {calls : List StaCall} (h : call ∈ madeCalls calls) : call ∈ calls := by
  induction calls with
  | nil => exact h
  | cons first calls ih =>
      rw [madeCalls] at h
      split at h
      · rcases List.mem_cons.mp h with rfl | hrest
        · exact List.mem_cons_self
        · exact List.mem_cons_of_mem first (ih hrest)
      · rw [List.mem_singleton.mp h]
        exact List.mem_cons_self

section Init

variable (networkSsid networkPassword : Bytes) (replies : StationReplies) (s : Station)

-- Both strings fit their arrays with their NUL.
def Station.Fits : Prop :=
  (cstr networkSsid).length < s.config.ssid.length ∧ (cstr networkPassword).length < s.config.password.length

-- The two strings in the arrays, with what the arrays have had behind them.
def Station.staConfig : WifiStaConfig where
  ssid := cstr networkSsid ++ [0] ++ s.config.ssid.drop ((cstr networkSsid).length + 1)
  password := cstr networkPassword ++ [0] ++ s.config.password.drop ((cstr networkPassword).length + 1)
  bssidSet := false

-- The calls in front of the one with the configuration.
def driverCalls : List StaCall :=
  [.tcpipAdapterInit, .wifiInit replies.wifiInit, .setStorage replies.setStorage, .setMode replies.setMode]

def Station.configureCalls : List StaCall :=
  driverCalls replies ++ [.setConfig (s.staConfig networkSsid networkPassword) replies.setConfig]

def Station.initCalls : List StaCall :=
  s.configureCalls networkSsid networkPassword replies ++ [.start replies.start]

-- The state behind a sequence of calls that is made up to its first failure.
structure Station.Made (calls : List StaCall) (result : EspErr) (t : Station) : Prop where
  made : t.calls = (madeCalls calls).reverse ++ s.calls
  result : result = callsResult calls

variable {networkSsid networkPassword replies s}

theorem Station.staConfig_strings :
    cstr (s.staConfig networkSsid networkPassword).ssid = cstr networkSsid ∧
    cstr (s.staConfig networkSsid networkPassword).password = cstr networkPassword :=
  ⟨cstr_copied networkSsid _, cstr_copied networkPassword _⟩

theorem Station.staConfig_lengths (h : s.Fits networkSsid networkPassword) :
    (s.staConfig networkSsid networkPassword).ssid.length = s.config.ssid.length ∧
    (s.staConfig networkSsid networkPassword).password.length = s.config.password.length := by
  obtain ⟨hssid, hpassword⟩ := h
  simp only [Station.staConfig, List.length_append, List.length_drop, List.length_singleton]
  omega

-- A group is there behind the accepted configuration, with a clear flag.
theorem wifiStaConfigure_makes (h : s.Fits networkSsid networkPassword) :
    wp (wifiStaConfigure networkSsid networkPassword replies)
      (fun result t => s.Made (s.configureCalls networkSsid networkPassword replies) result t ∧
        (result ≠ ESP_OK → t.eventGroup = s.eventGroup) ∧
        (result = ESP_OK → t.config = s.staConfig networkSsid networkPassword ∧
          t.eventGroup = if replies.eventGroupCreate then some false else none))
      (fun _ _ => False) s := by
  obtain ⟨hssid, hpassword⟩ := h
  unfold wifiStaConfigure
  simp only [wp_bind, wp_get, wp_ite, wp_pure, staCall, wp_modify, strcpy_eq_some hssid,
    strcpy_eq_some hpassword]
  refine ⟨fun hlong => absurd hssid (Nat.not_lt.mpr hlong), fun _ =>
    ⟨fun hlong => absurd hpassword (Nat.not_lt.mpr hlong), fun _ => ?_⟩⟩
  refine ⟨fun hinit => ?_, fun hinit => ⟨fun hstorage => ?_, fun hstorage => ⟨fun hmode => ?_, fun hmode =>
    ⟨fun hconfig => ?_, fun hconfig => ?_⟩⟩⟩⟩
  all_goals
    simp only [ne_eq, Decidable.not_not] at *
    refine ⟨⟨?_, ?_⟩, ?_, ?_⟩ <;>
      simp [Station.configureCalls, driverCalls, madeCalls, callsResult, StaCall.result, Station.staConfig, *]

-- Strings that do not fit leave everything as it is.
theorem wifiStaConfigure_refuses (h : ¬s.Fits networkSsid networkPassword) :
    wp (wifiStaConfigure networkSsid networkPassword replies)
      (fun result t => result = ESP_ERR_INVALID_ARG ∧ t = s) (fun _ _ => False) s := by
  unfold wifiStaConfigure
  simp only [wp_bind, wp_get, wp_ite, wp_pure, implies_true, true_and]
  intro hssid hpassword
  exact absurd ⟨Nat.lt_of_not_le hssid, Nat.lt_of_not_le hpassword⟩ h

-- The driver is started last, and only behind a configuration that it has accepted.
theorem wifiStaInit_makes (h : s.Fits networkSsid networkPassword) :
    wp (wifiStaInit networkSsid networkPassword replies)
      (fun result t => s.Made (s.initCalls networkSsid networkPassword replies) result t)
      (fun _ _ => False) s := by
  unfold wifiStaInit
  rw [wp_bind]
  apply wp_mono (wifiStaConfigure_makes h)
  · intro result t hpost
    obtain ⟨⟨hmade, hresult⟩, -⟩ := hpost
    rw [wp_ite]
    refine ⟨fun hfailed => ?_, fun hok => ?_⟩
    · rw [hresult] at hfailed
      obtain ⟨hcalls, hinit⟩ := madeCalls_append_of_failed hfailed [.start replies.start]
      exact ⟨by rw [Station.initCalls, hcalls, hmade], by rw [Station.initCalls, hinit, hresult]⟩
    · rw [ne_eq, Decidable.not_not] at hok
      have hcalls := madeCalls_append_of_ok (hresult.symm.trans hok) [.start replies.start]
      have hconfigured := madeCalls_append_of_ok (hresult.symm.trans hok) []
      rw [List.append_nil] at hconfigured
      refine ⟨?_, ?_⟩
      · simp only [Station.initCalls, hcalls.1, hmade, hconfigured.1]
        simp [madeCalls]
      · rw [Station.initCalls, hcalls.2]
        by_cases hstart : replies.start = ESP_OK
        · simp only [callsResult, StaCall.result, hstart, ite_true]
        · simp only [callsResult, StaCall.result, hstart, ite_false]
  · exact fun _ _ hfalse => hfalse

theorem wifiStaInit_refuses (h : ¬s.Fits networkSsid networkPassword) :
    wp (wifiStaInit networkSsid networkPassword replies)
      (fun result t => result = ESP_ERR_INVALID_ARG ∧ t = s) (fun _ _ => False) s := by
  unfold wifiStaInit
  rw [wp_bind]
  apply wp_mono (wifiStaConfigure_refuses h)
  · intro result t hpost
    obtain ⟨rfl, rfl⟩ := hpost
    rw [wp_ite]
    exact ⟨fun _ => ⟨rfl, rfl⟩, fun hok => absurd (by decide) hok⟩
  · exact fun _ _ hfalse => hfalse

-- Whatever the strings and the answers: no array overflows, the driver gets the strings as they are, its
-- calls come in order up to the first one that fails, and that failure is the answer.
theorem wifiStaInit_drives (networkSsid networkPassword : Bytes) (replies : StationReplies) (s : Station) :
    wp (wifiStaInit networkSsid networkPassword replies)
      (fun result t =>
        (s.Fits networkSsid networkPassword → s.Made (s.initCalls networkSsid networkPassword replies) result t ∧
          ∀ config answer, .setConfig config answer ∈ s.initCalls networkSsid networkPassword replies →
            cstr config.ssid = cstr networkSsid ∧ cstr config.password = cstr networkPassword ∧
            config.ssid.length = s.config.ssid.length ∧ config.password.length = s.config.password.length) ∧
        (¬s.Fits networkSsid networkPassword → result = ESP_ERR_INVALID_ARG ∧ t = s))
      (fun _ _ => False) s := by
  by_cases hfits : s.Fits networkSsid networkPassword
  · refine wp_mono (wifiStaInit_makes hfits) (fun result t hmade => ⟨fun _ => ⟨hmade, ?_⟩, absurd hfits⟩)
      (fun _ _ hfalse => hfalse)
    intro config answer hcall
    have hconfig : config = s.staConfig networkSsid networkPassword := by
      simp only [Station.initCalls, Station.configureCalls, driverCalls, List.mem_append, List.mem_cons,
        List.not_mem_nil, or_false, StaCall.setConfig.injEq, reduceCtorEq, false_or] at hcall
      exact hcall.1
    obtain ⟨hssid, hpassword⟩ := @Station.staConfig_strings networkSsid networkPassword s
    obtain ⟨hssidLength, hpasswordLength⟩ := Station.staConfig_lengths hfits
    rw [hconfig]
    exact ⟨hssid, hpassword, hssidLength, hpasswordLength⟩
  · exact wp_mono (wifiStaInit_refuses hfits) (fun _ _ hrefused => ⟨fun h => absurd h hfits, fun _ => hrefused⟩)
      (fun _ _ hfalse => hfalse)

end Init

end Esp32Ota
