import Esp32Ota.HttpsClient.KeyValue
import Esp32Ota.IapHttps.Decision

-- The path that the metadata gives, as a part of one line of the firmware request.
namespace Esp32Ota

open CLib Halting

-- What `server_firmware_path` holds after a document with a file name.
structure OneLine (path : Bytes) : Prop where
  length : path.length = 256
  terminated : 0 ∈ path
  noCr : 13 ∉ path
  noLf : 10 ∉ path

theorem oneLine_strncpy {value : Bytes} (hlen : value.length ≤ 255) (hline : ∀ c ∈ value, c ≠ 13 ∧ c ≠ 10) :
    OneLine (strncpy value 256) := by
  have hpad : strncpy value 256 = value ++ List.replicate (256 - value.length) 0 := by
    rw [strncpy, List.take_of_length_le (by omega)]
  rw [hpad]
  refine ⟨?_, ?_, ?_, ?_⟩
  · rw [List.length_append, List.length_replicate]
    omega
  · refine List.mem_append_right _ (List.mem_replicate.mpr ⟨by omega, rfl⟩)
  · intro h
    rcases List.mem_append.mp h with h | h
    · exact (hline 13 h).1 rfl
    · exact absurd (List.eq_of_mem_replicate h) (by decide)
  · intro h
    rcases List.mem_append.mp h with h | h
    · exact (hline 10 h).2 rfl
    · exact absurd (List.eq_of_mem_replicate h) (by decide)

-- The path fills up the first line of the request; the others are those of the host.
theorem lines_of_request {path : Bytes} (hpath : OneLine path) (host : Bytes) :
    (httpGetRequest (cstr path) host).splitOn 10 =
      (ascii "GET " ++ cstr path ++ ascii " HTTP/1.1\r") ::
        (ascii "Host: " ++ host ++ ascii "\r\n\r\n").splitOn 10 := by
  have hline : 10 ∉ ascii "GET " ++ cstr path ++ ascii " HTTP/1.1\r" := by
    intro h
    simp only [List.mem_append] at h
    rcases h with (h | h) | h
    · exact absurd h (by decide)
    · exact hpath.noLf ((cstr_isPrefix path).subset h)
    · exact absurd h (by decide)
  have hrequest : httpGetRequest (cstr path) host =
      (ascii "GET " ++ cstr path ++ ascii " HTTP/1.1\r") ++ 10 :: (ascii "Host: " ++ host ++ ascii "\r\n\r\n") := by
    simp [httpGetRequest, ascii]
  rw [hrequest, List.splitOn_append_cons_self_of_not_mem hline]

-- The line that the parser takes has none of the ends that it looks for.
theorem withMetadata_path (interval version : Option Int) (document : Bytes) (s : App) :
    (s.withMetadata interval version
        (httpParseKeyValueString document (ascii "FILE=") 256)).config.serverFirmwarePath =
      s.config.serverFirmwarePath ∨
    OneLine (s.withMetadata interval version
      (httpParseKeyValueString document (ascii "FILE=") 256)).config.serverFirmwarePath := by
  rw [httpParseKeyValueString_behind]
  cases version with
  | none => exact .inl rfl
  | some version =>
      cases textBehind document (ascii "FILE=") with
      | none => exact .inl rfl
      | some text =>
          obtain ⟨-, hline, hfits, -⟩ := longestLine_lineStart text 255
          exact .inr (oneLine_strncpy hfits hline)

-- Every byte that is read lies before the NUL or is the NUL, so memory may end there.
theorem key_value_string (text rest key str : Bytes) (strLen : Nat) (htext : 0 ∉ text) (hkey : 0 ∉ key)
    (hpos : 1 ≤ strLen) (hstr : strLen ≤ str.length) :
    (find key text = none →
      httpParseKeyValueStringAt (text ++ 0 :: rest) key str strLen = .ok (-1, str)) ∧
    (∀ locKey, find key text = some locKey → ∃ value strOut,
      httpParseKeyValueStringAt (text ++ 0 :: rest) key str strLen = .ok (0, strOut) ∧
      LongestLine (text.drop (locKey + key.length)) (strLen - 1) value ∧ cstr strOut = value ∧
      strOut.length = str.length ∧ ∀ k ≥ strLen, strOut[k]? = str[k]?) ∧
    ∀ (document : Bytes) (n : Nat) (s : App), wp (iapHttpsMetadataBodyCallback document n)
      (fun _ t => t.config.serverFirmwarePath = s.config.serverFirmwarePath ∨
        OneLine t.config.serverFirmwarePath ∧ ∀ platform valid,
          httpsValidateRequest (httpFirmwareDataRequest platform t) = .ok valid →
          (httpGetRequest valid.path valid.host).splitOn 10 =
            (ascii "GET " ++ cstr t.config.serverFirmwarePath ++ ascii " HTTP/1.1\r") ::
              (ascii "Host: " ++ valid.host ++ ascii "\r\n\r\n").splitOn 10)
      (fun _ _ => False) s := by
  have hnul : (0 : UInt8) ∈ text ++ 0 :: rest := by simp
  have hcstr : cstr (text ++ 0 :: rest) = text := by
    rw [cstr_append _ _ htext, cstr_cons_zero, List.append_nil]
  have hrun := httpParseKeyValueStringAt_eq (.inl hnul) hkey (fun h => absurd hnul h) hpos hstr
  rw [httpParseKeyValueString, strstr, hcstr] at hrun
  refine ⟨fun hfind => ?_, fun locKey hfind => ?_, fun document n s => ?_⟩
  · rw [hrun, hfind]
    rfl
  · have hvalue := longestLine_lineStart (text.drop (locKey + key.length)) (strLen - 1)
    have hrun : httpParseKeyValueStringAt (text ++ 0 :: rest) key str strLen = .ok (0, store str 0
        (lineStart (text.drop (locKey + key.length)) (strLen - 1) ++ [0])) := by rw [hrun, hfind]; rfl
    generalize lineStart (text.drop (locKey + key.length)) (strLen - 1) = value at hvalue hrun
    have hzero : 0 ∉ value := fun h => htext (List.mem_of_mem_drop (hvalue.initial.subset h))
    have hend : 0 + (value ++ [0]).length ≤ strLen := by
      have := hvalue.fits
      rw [List.length_append, List.length_singleton]
      omega
    refine ⟨value, _, hrun, hvalue, ?_, ?_, fun k hk => ?_⟩
    · rw [store_zero, List.append_assoc, cstr_append _ _ hzero, List.singleton_append, cstr_cons_zero,
        List.append_nil]
    · exact length_store _ _ _ (hend.trans hstr)
    · exact getElem?_store_of_ge (Nat.zero_le _) (hend.trans hk)
  · rw [wp_iapHttpsMetadataBodyCallback]
    refine (withMetadata_path _ _ document s).imp_right fun hpath => ⟨hpath, fun platform valid hvalid => ?_⟩
    have hvalidPath := congrArg HttpRequest.path (request_of_validate hvalid)
    simp only [httpFirmwareDataRequest, Option.some.injEq] at hvalidPath
    rw [← hvalidPath]
    exact lines_of_request hpath valid.host

-- A path with a line of its own behind it, and room for two of its bytes.
def injectedPath : Bytes := ascii "FILE=/b\r\nX-Y: z"

theorem injectedPath_cut : ∃ value strOut,
    httpParseKeyValueStringAt (injectedPath ++ [0]) (ascii "FILE=") [1, 1, 1, 1] 3 = .ok (0, strOut) ∧
    LongestLine (injectedPath.drop 5) 2 value ∧ cstr strOut = value ∧ strOut.length = 4 ∧
    ∀ k ≥ 3, strOut[k]? = [(1 : UInt8), 1, 1, 1][k]? :=
  (key_value_string injectedPath [] (ascii "FILE=") [1, 1, 1, 1] 3 (by decide) (by decide) (by decide)
    (by decide)).2.1 0 (by decide)

end Esp32Ota
