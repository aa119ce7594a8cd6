import Esp32Ota.HttpsClient.OneCall

-- The document that a request hands over when it waits for the complete body, in terms of the reads.
namespace Esp32Ota

open CLib Halting

-- The response buffer when the body has its length, with `n` bytes of it before these reads.
def gathered (contentLength : Nat) : Bytes → Nat → List Bytes → Option Bytes
  | buffer, n, [] => if contentLength ≤ n then some buffer else none
  | buffer, n, fragment :: rest =>
      if contentLength ≤ n then some buffer
      else if buffer.length < n + fragment.length then none
      else gathered contentLength (store buffer n fragment) (n + fragment.length) rest

-- The body over what accepted headers leave in the response buffer; `none` where the reads
-- do not fit or bring no such headers or less than their body.
def wholeBody (size : Nat) : Bytes → Bytes → List Bytes → Option Bytes
  | _, _, [] => none
  | received, tls, fragment :: rest =>
      if size < (received ++ fragment).length then none
      else match find crlfcrlf (cstr (received ++ fragment)) with
        | none => wholeBody size (received ++ fragment) (store tls 0 fragment) rest
        | some i =>
            (acceptedLength ((received ++ fragment).take i)).bind fun contentLength =>
              gathered contentLength
                (bodyBuffer (received ++ fragment ++ List.replicate (size - (received ++ fragment).length) 0) i
                  (((store tls 0 fragment).drop (i + 4)).take ((received ++ fragment).length - (i + 4))))
                ((received ++ fragment).length - (i + 4)) rest

theorem length_bodyBuffer {buffer content : Bytes} {i : Nat} (h : i + 4 + content.length ≤ buffer.length) :
    (bodyBuffer buffer i content).length = buffer.length := by
  have hcut := length_store buffer i [0] (by rw [List.length_singleton]; omega)
  have hcopied := length_store (store buffer i [0]) 0 content (by omega)
  have hended := length_store (store (store buffer i [0]) 0 content) content.length [0]
    (by rw [List.length_singleton]; omega)
  rw [bodyBuffer, hended, hcopied, hcut]

section Documents

variable {α : Type} {request : ValidRequest α} {received content : Bytes} {contentLength bodyBytes index : Nat}
  {s : Client α}

-- Whatever ends a request, it has handed over this document or none.
def HandsOver (document : Option Bytes) (t : Client α) : Prop := documents t.events = document.toList

theorem wp_error_handsNothing {error : HttpErr} {info : Int} (hs : documents s.events = []) :
    wp (invokeErrorCallback request error info) (fun _ => HandsOver none) (fun _ => HandsOver none) s :=
  wp_error_of_called fun t ht => by rw [HandsOver, ht.events, documents, hs, Option.toList_none]

-- With the body complete, the callback gets the buffer as it stands.
theorem wp_body_handsOver {n : Nat} (hs : documents s.events = []) :
    wp (invokeBodyCallback request n) (fun _ => HandsOver (some s.responseBuffer))
      (fun _ => HandsOver (some s.responseBuffer)) s :=
  wp_body_of_called fun t ht => by rw [HandsOver, ht.events, documents, hs, Option.toList_some]

theorem feed_gathered (hmode : request.responseMode = .waitForCompleteBody) (rest : List Bytes) (buffer : Bytes)
    (hindex : index ≠ 0) (hs : InBody contentLength bodyBytes content s) (hevents : documents s.events = [])
    {document : Option Bytes} (hdocument : gathered contentLength s.responseBuffer content.length rest = document) :
    wp (httpsProcessBody request)
      (fun go t => wp (if go = true then feed (httpsTlsCallback request) rest index buffer else pure false)
        (fun _ => HandsOver document) (fun _ => HandsOver document) t)
      (fun _ => HandsOver document) s := by
  induction rest generalizing bodyBytes content index buffer s with
  | nil =>
      rw [gathered] at hdocument
      rw [wp_httpsProcessBody_wait hmode hs]
      refine ⟨fun hshort => ?_, fun hdone => ?_⟩
      · rw [if_neg (Nat.not_le.mpr hshort)] at hdocument
        rw [← hdocument]
        exact hevents
      · rw [if_pos hdone] at hdocument
        rw [← hdocument]
        exact wp_body_handsOver hevents
  | cons fragment rest ih =>
      rw [gathered] at hdocument
      rw [wp_httpsProcessBody_wait hmode hs]
      refine ⟨fun hshort => ?_, fun hdone => ?_⟩
      · rw [if_neg (Nat.not_le.mpr hshort)] at hdocument
        simp only [ite_true, feed, wp_bind]
        refine wp_httpsTlsCallback_body hs hindex (fun hfull => ?_) (fun hfits t ht hst hbuffer => ?_)
        · rw [if_pos hfull] at hdocument
          rw [← hdocument]
          exact wp_error_handsNothing hevents
        · rw [if_neg (Nat.not_lt.mpr hfits), ← hbuffer, ← List.length_append] at hdocument
          exact ih _ (Nat.succ_ne_zero index) ht (by rw [hst.events, hevents]) hdocument
      · rw [if_pos hdone] at hdocument
        rw [← hdocument]
        exact wp_body_handsOver hevents

theorem feed_wholeBody (hmode : request.responseMode = .waitForCompleteBody) (fs : List Bytes) (tls : Bytes)
    {size : Nat} (hsize : s.responseBuffer.length = size) (htls : size ≤ tls.length)
    (hfs : ∀ fragment ∈ fs, fragment.length ≤ tls.length) (hs : AwaitingHeaders received (s.atIndex index))
    (hevents : documents s.events = []) {document : Option Bytes}
    (hdocument : wholeBody size received tls fs = document) :
    wp (feed (httpsTlsCallback request) fs index tls) (fun _ => HandsOver document)
      (fun _ => HandsOver document) s := by
  induction fs generalizing received index tls s with
  | nil =>
      rw [← hdocument]
      exact hevents
  | cons fragment fs ih =>
      have hfragment := hfs fragment List.mem_cons_self
      have hstored : (store tls 0 fragment).length = tls.length :=
        length_store _ _ _ (by rw [Nat.zero_add]; exact hfragment)
      have hsame : ∀ t, SameClient s t → documents t.events = [] := fun t ht => by rw [ht.events, hevents]
      have hfits : received.length + fragment.length ≤ s.responseBuffer.length →
          ¬size < (received ++ fragment).length := fun hfits => by rw [List.length_append]; omega
      rw [wholeBody] at hdocument
      simp only [feed, wp_bind]
      refine wp_httpsTlsCallback_headers hs (fun hfull => ?_) (fun hle t ht hst => ?_) ?_ ?_ ?_
      · rw [if_pos (by rw [List.length_append]; omega)] at hdocument
        rw [← hdocument]
        exact wp_error_handsNothing (hsame _ (atIndex_same index s))
      · rw [if_neg (hfits hle), ht.pending] at hdocument
        exact ih (store tls 0 fragment) (hst.bufferLen.trans hsize) (hstored ▸ htls)
          (fun f hf => hstored ▸ hfs f (List.mem_cons_of_mem _ hf))
          (ht.later index) (hsame t hst) hdocument
      · intro hle i hfind hreject t hst _
        rw [if_neg (hfits hle), hfind] at hdocument
        simp only [hreject, Option.bind_none] at hdocument
        rw [← hdocument]
        exact ⟨fun _ _ _ => hsame t hst, fun error info _ _ => wp_error_handsNothing (hsame t hst)⟩
      · intro hle i _ _ _ hlong
        rw [hstored, List.length_append] at hlong
        omega
      · intro hle i contentLength content hfind hbound haccept hcontent hlen t ht hst hbuffer
        obtain ⟨spare, hbuffer⟩ := hbuffer
        have hspare : spare = size - (received ++ fragment).length := by
          have hlength : (received ++ fragment ++ List.replicate spare 0).length =
              (received ++ fragment).length + spare := by
            rw [List.length_append, List.length_replicate]
          have hkept := congrArg List.length hbuffer
          rw [length_bodyBuffer (by omega), hst.bufferLen, hsize, hlength] at hkept
          omega
        rw [if_neg (hfits hle), hfind] at hdocument
        simp only [haccept, Option.bind_some] at hdocument
        rw [← hspare, ← hcontent, ← hbuffer, ← hlen] at hdocument
        exact feed_gathered hmode fs _ (Nat.succ_ne_zero index) ht (hsame t hst) hdocument

end Documents

end Esp32Ota
