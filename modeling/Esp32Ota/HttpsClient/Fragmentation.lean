import Esp32Ota.HttpsClient.BodyEnd

-- What reaches the body callback, for any way to cut a response into reads.
namespace Esp32Ota

open CLib Halting

-- The bytes that the body callback finds, over all its calls.
def delivered : List HttpEvent → Bytes
  | [] => []
  | .body responseBuffer bytesReceived :: earlier =>
      delivered earlier ++ responseBuffer.take bytesReceived
  | .error _ _ :: earlier => delivered earlier

section Pieces

-- In streaming mode the fragments are delivered until the count of body bytes
-- reaches the content length; `n` bytes came before them.
def streamed (contentLength : Nat) : Nat → List Bytes → Bytes
  | _, [] => []
  | n, fragment :: rest =>
      fragment ++
        if contentLength ≤ sizeT (n + fragment.length) then []
        else streamed contentLength (n + fragment.length) rest

-- Otherwise the content is delivered as a whole once it is long enough.
def collected (contentLength : Nat) (content : Bytes) : List Bytes → Bytes
  | [] => if contentLength ≤ content.length then content else []
  | fragment :: rest =>
      if contentLength ≤ content.length then content
      else collected contentLength (content ++ fragment) rest

-- Reading goes on at the end of each of these fragments, `n` bytes into the body.
theorem streamed_eq_iff (contentLength n : Nat) (rest : List Bytes)
    (hrest : ∀ fragment ∈ rest, fragment ≠ []) :
    streamed contentLength n rest = rest.flatten ↔
      ∀ k < rest.length, 0 < k → sizeT (n + (rest.take k).flatten.length) < contentLength := by
  induction rest generalizing n with
  | nil => simp [streamed]
  | cons fragment rest ih =>
      have hrest' := fun f hf => hrest f (List.mem_cons_of_mem _ hf)
      have hstep : (∀ k < (fragment :: rest).length, 0 < k →
          sizeT (n + ((fragment :: rest).take k).flatten.length) < contentLength) ↔
          (rest ≠ [] → sizeT (n + fragment.length) < contentLength) ∧
          ∀ k < rest.length, 0 < k →
            sizeT (n + fragment.length + (rest.take k).flatten.length) < contentLength := by
        constructor
        · intro h
          refine ⟨fun hne => ?_, fun k hk _ => ?_⟩
          · have := h 1 (by simpa using List.length_pos_iff.mpr hne) Nat.one_pos
            simpa using this
          · have := h (k + 1) (by simpa using hk) (Nat.succ_pos k)
            simpa [Nat.add_assoc] using this
        · rintro ⟨hfirst, hlater⟩ k hk hpos
          cases k with
          | zero => exact absurd hpos (Nat.lt_irrefl 0)
          | succ k =>
              simp only [List.take_succ_cons, List.flatten_cons, List.length_append, ← Nat.add_assoc]
              rcases Nat.eq_zero_or_pos k with rfl | hk'
              · simpa using hfirst (List.length_pos_iff.mp (by simpa using hk))
              · exact hlater k (by simpa using hk) hk'
      rw [hstep, streamed, List.flatten_cons, List.append_cancel_left_eq]
      by_cases hdone : contentLength ≤ sizeT (n + fragment.length)
      · rw [if_pos hdone]
        cases rest with
        | nil => simp
        | cons next rest =>
            have hne : next ≠ [] := hrest' next List.mem_cons_self
            refine iff_of_false (fun h => ?_) (fun h => ?_)
            · simp [hne] at h
            · have := h.1 (by simp)
              omega
      · rw [if_neg hdone, ih _ hrest']
        exact ⟨fun h => ⟨fun _ => by omega, h⟩, fun h => h.2⟩

theorem collected_eq_iff (contentLength : Nat) (content : Bytes) (rest : List Bytes)
    (hrest : ∀ fragment ∈ rest, fragment ≠ []) (hbody : content ++ rest.flatten ≠ []) :
    collected contentLength content rest = content ++ rest.flatten ↔
      contentLength ≤ content.length + rest.flatten.length ∧
        ∀ k < rest.length, content.length + (rest.take k).flatten.length < contentLength := by
  induction rest generalizing content with
  | nil =>
      simp only [List.flatten_nil, List.append_nil] at hbody
      by_cases hdone : contentLength ≤ content.length
      · simp [collected, hdone]
      · simpa [collected, hdone] using hbody.symm
  | cons fragment rest ih =>
      have hrest' := fun f hf => hrest f (List.mem_cons_of_mem _ hf)
      have hne : fragment ≠ [] := hrest fragment List.mem_cons_self
      rw [collected]
      by_cases hdone : contentLength ≤ content.length
      · rw [if_pos hdone]
        refine iff_of_false (fun h => ?_) (fun h => ?_)
        · simp [hne] at h
        · have := h.2 0 (by simp)
          simp at this
          omega
      · rw [if_neg hdone]
        have hassoc : content ++ (fragment :: rest).flatten = content ++ fragment ++ rest.flatten := by
          simp
        rw [hassoc] at hbody ⊢
        rw [ih (content ++ fragment) hrest' hbody]
        simp only [List.length_append, List.flatten_cons]
        refine and_congr (by omega) ⟨fun h k hk => ?_, fun h k hk => ?_⟩
        · cases k with
          | zero => simp only [List.take_zero, List.flatten_nil, List.length_nil]; omega
          | succ k =>
              have := h k (by simpa using hk)
              simp only [List.take_succ_cons, List.flatten_cons, List.length_append]
              omega
        · have := h (k + 1) (by simpa using hk)
          simp only [List.take_succ_cons, List.flatten_cons, List.length_append] at this
          omega

theorem collected_shape (contentLength : Nat) (content : Bytes) (rest : List Bytes) :
    collected contentLength content rest = [] ∨ content <+: collected contentLength content rest := by
  induction rest generalizing content with
  | nil =>
      rw [collected]
      split
      · exact .inr (List.prefix_refl _)
      · exact .inl rfl
  | cons fragment rest ih =>
      rw [collected]
      split
      · exact .inr (List.prefix_refl _)
      · exact (ih (content ++ fragment)).imp_right (List.prefix_append _ _).trans

-- Reading goes on to the last of the reads that follow the first `n` body
-- bytes, and ends there where the whole body is waited for.
def ReadsOn (mode : HttpResponseMode) (contentLength n : Nat) (rest : List Bytes) : Prop :=
  match mode with
  | .streamBody =>
      ∀ k < rest.length, 0 < n + (rest.take k).flatten.length →
        sizeT (n + (rest.take k).flatten.length) < contentLength
  | .waitForCompleteBody =>
      contentLength ≤ n + rest.flatten.length ∧
        ∀ k < rest.length, n + (rest.take k).flatten.length < contentLength

end Pieces

theorem collected_done {contentLength : Nat} {content : Bytes} (h : contentLength ≤ content.length)
    (rest : List Bytes) : collected contentLength content rest = content := by
  cases rest <;> simp [collected, h]

theorem delivered_body {content buffer : Bytes} (h : content <+: buffer) (earlier : List HttpEvent) :
    delivered (.body buffer content.length :: earlier) = delivered earlier ++ content := by
  rw [delivered, List.prefix_iff_eq_take.mp h, List.length_take, Nat.min_eq_left h.length_le]

-- The application takes everything.
def AlwaysContinues {α : Type} (request : ValidRequest α) : Prop :=
  ∀ buffer n app, wp (request.bodyCallback buffer n) (fun cr _ => cr = .continueReceiving)
    (fun _ _ => False) app

def HttpEvent.isOverflow : HttpEvent → Bool
  | .error .bufferTooSmall _ => true
  | _ => false

def Overflowed {α : Type} (s : Client α) : Prop := ∃ event ∈ s.events, event.isOverflow = true

instance {α : Type} (s : Client α) : Decidable (Overflowed s) :=
  inferInstanceAs (Decidable (∃ event ∈ s.events, event.isOverflow = true))

section Feed

variable {α : Type} {request : ValidRequest α} {s : Client α}

theorem AlwaysContinues.invoke (h : AlwaysContinues request) (n : Nat) (s : Client α) :
    wp (invokeBodyCallback request n)
      (fun cr t => cr = .continueReceiving ∧ Called (.body s.responseBuffer n) s t)
      (fun _ _ => False) s := by
  rw [wp_invokeBodyCallback]
  exact wp_mono (h s.responseBuffer n s.app) (fun _ _ hcr => ⟨hcr, rfl, rfl, rfl⟩) (fun _ _ h => h)

theorem Called.overflowed {t : Client α} (h : Called (.error .bufferTooSmall 0) s t) : Overflowed t :=
  ⟨_, by rw [h.events]; exact List.mem_cons_self, rfl⟩

-- Until a packet is dropped, the deliveries are those of `bytes`.
def Delivers (bytes : Bytes) (t : Client α) : Prop := Overflowed t ∨ delivered t.events = bytes

theorem overflow_delivers (bytes : Bytes) (s : Client α) :
    wp (invokeErrorCallback request .bufferTooSmall 0) (fun _ => Delivers bytes) (fun _ => Delivers bytes) s :=
  wp_error_of_called fun _ ht => .inl ht.overflowed

theorem feed_streamed (hmode : request.responseMode = .streamBody) (hcontinue : AlwaysContinues request)
    {contentLength n : Nat} (rest : List Bytes) (hrest : ∀ fragment ∈ rest, fragment ≠ [])
    {index : Nat} (hindex : index ≠ 0) (buffer : Bytes) (hs : InBody contentLength n [] s) :
    wp (feed (httpsTlsCallback request) rest index buffer)
      (fun _ => Delivers (delivered s.events ++ streamed contentLength n rest))
      (fun _ => Delivers (delivered s.events ++ streamed contentLength n rest)) s := by
  induction rest generalizing s n index buffer with
  | nil => exact .inr (by simp [streamed])
  | cons fragment rest ih =>
      have hne : fragment ≠ [] := hrest fragment List.mem_cons_self
      simp only [feed, wp_bind]
      refine wp_httpsTlsCallback_body hs hindex (fun _ => overflow_delivers _ s) (fun _ t ht hst _ => ?_)
      rw [wp_httpsProcessBody_stream hmode ht]
      refine ⟨fun hnil => absurd hnil hne, fun _ => ?_⟩
      refine wp_mono (hcontinue.invoke _ t) ?_ (fun _ _ h => h.elim)
      intro cr u hpost
      obtain ⟨rfl, hu⟩ := hpost
      have hbytes : delivered u.events = delivered s.events ++ fragment := by
        rw [hu.events, delivered_body ht.buffer, hst.events, List.nil_append]
      refine ⟨fun h => absurd rfl h, fun _ => ⟨fun hdone => ?_, fun hmore => ?_⟩⟩
      · refine wp_mono (hcontinue.invoke 0 u) ?_ (fun _ _ h => h.elim)
        intro _ v hpost
        obtain ⟨-, hv⟩ := hpost
        right
        rw [hv.events, delivered, List.take_zero, hbytes, streamed, if_pos hdone, List.append_nil,
          List.append_nil]
      · have hu' := (ht.congr hu.context hu.buffer).clear
        have hnext := ih (fun f hf => hrest f (List.mem_cons_of_mem _ hf)) (Nat.succ_ne_zero index)
          (store buffer 0 fragment) hu'
        have hstreamed : streamed contentLength n (fragment :: rest) =
            fragment ++ streamed contentLength (n + fragment.length) rest := by
          rw [streamed, if_neg (by omega)]
        rw [hstreamed, ← List.append_assoc, ← hbytes]
        exact hnext

theorem feed_collected (hmode : request.responseMode = .waitForCompleteBody)
    (hcontinue : AlwaysContinues request) {contentLength : Nat} (rest : List Bytes) {content : Bytes}
    (hmissing : content.length < contentLength) {n index : Nat} (hindex : index ≠ 0) (buffer : Bytes)
    (hs : InBody contentLength n content s) :
    wp (feed (httpsTlsCallback request) rest index buffer)
      (fun _ => Delivers (delivered s.events ++ collected contentLength content rest))
      (fun _ => Delivers (delivered s.events ++ collected contentLength content rest)) s := by
  induction rest generalizing s n content index buffer with
  | nil => exact .inr (by rw [collected, if_neg (by omega), List.append_nil])
  | cons fragment rest ih =>
      have hcollect : collected contentLength content (fragment :: rest) =
          collected contentLength (content ++ fragment) rest := by
        rw [collected, if_neg (by omega)]
      rw [hcollect]
      simp only [feed, wp_bind]
      refine wp_httpsTlsCallback_body hs hindex (fun _ => overflow_delivers _ s) (fun _ t ht hst _ => ?_)
      rw [wp_httpsProcessBody_wait hmode ht]
      refine ⟨fun hmissing => ?_, fun hdone => ?_⟩
      · rw [← hst.events]
        exact ih hmissing (Nat.succ_ne_zero index) (store buffer 0 fragment) ht
      · refine wp_mono (hcontinue.invoke _ t) ?_ (fun _ _ h => h.elim)
        intro _ u hpost
        obtain ⟨-, hu⟩ := hpost
        right
        rw [hu.events, delivered_body ht.buffer, hst.events, collected_done hdone]

-- What is delivered once the headers are accepted, with `content` in the buffer.
def deliveredAfter (mode : HttpResponseMode) (contentLength : Nat) (content : Bytes)
    (rest : List Bytes) : Bytes :=
  match mode with
  | .streamBody =>
      if content ≠ [] ∧ contentLength ≤ sizeT content.length then content
      else content ++ streamed contentLength content.length rest
  | .waitForCompleteBody => collected contentLength content rest

theorem deliveredAfter_eq_iff (mode : HttpResponseMode) (contentLength : Nat) {content head : Bytes}
    (rest : List Bytes) (hrest : ∀ fragment ∈ rest, fragment ≠ [])
    (hlen : content.length = head.length) (hbody : head ++ rest.flatten ≠ []) :
    deliveredAfter mode contentLength content rest = head ++ rest.flatten ↔
      content = head ∧ ReadsOn mode contentLength content.length rest := by
  cases mode with
  | streamBody =>
      rw [deliveredAfter, ReadsOn]
      have hpositive : ∀ k < rest.length, 0 < k → 0 < (rest.take k).flatten.length := by
        intro k hk hpos
        cases rest with
        | nil => cases hk
        | cons fragment rest =>
            obtain ⟨k, rfl⟩ := Nat.exists_eq_succ_of_ne_zero (Nat.pos_iff_ne_zero.mp hpos)
            have := List.length_pos_iff.mpr (hrest fragment List.mem_cons_self)
            simp only [List.take_succ_cons, List.flatten_cons, List.length_append]
            omega
      by_cases hlast : content ≠ [] ∧ contentLength ≤ sizeT content.length
      · rw [if_pos hlast]
        cases rest with
        | nil => simp
        | cons fragment rest =>
            have hne : fragment ≠ [] := hrest fragment List.mem_cons_self
            refine iff_of_false (fun h => ?_) (fun h => ?_)
            · have := congrArg List.length h
              have := List.length_pos_iff.mpr hne
              simp only [List.flatten_cons, List.length_append] at *
              omega
            · have := h.2 0 (by simp) (by simpa [List.length_pos_iff] using hlast.1)
              simp only [List.take_zero, List.flatten_nil, List.length_nil, Nat.add_zero] at this
              omega
      · rw [if_neg hlast, List.append_eq_append_iff_of_size_eq_left hlen, streamed_eq_iff _ _ _ hrest]
        refine and_congr_right fun _ => ⟨fun h k hk hpos => ?_, fun h k hk hpos => ?_⟩
        · rcases Nat.eq_zero_or_pos k with rfl | hk'
          · simp only [List.take_zero, List.flatten_nil, List.length_nil, Nat.add_zero] at hpos ⊢
            by_contra hge
            exact hlast ⟨List.length_pos_iff.mp hpos, by omega⟩
          · exact h k hk hk'
        · exact h k hk (by have := hpositive k hk hpos; omega)
  | waitForCompleteBody =>
      rw [deliveredAfter, ReadsOn]
      by_cases hcontent : content = head
      · subst hcontent
        rw [collected_eq_iff _ _ _ hrest hbody]
        simp
      · refine iff_of_false (fun h => ?_) (fun h => hcontent h.1)
        rcases collected_shape contentLength content rest with hnil | hinitial
        · exact hbody (h.symm.trans hnil)
        · rw [h] at hinitial
          have hsame := List.prefix_of_prefix_length_le hinitial (List.prefix_append head _) (by omega)
          exact hcontent (hsame.eq_of_length hlen)

theorem httpsProcessBody_feed (hcontinue : AlwaysContinues request) {contentLength : Nat}
    {content : Bytes} (rest : List Bytes) (hrest : ∀ fragment ∈ rest, fragment ≠ []) {index : Nat}
    (hindex : index ≠ 0) (buffer : Bytes) (hs : InBody contentLength content.length content s) :
    wp (httpsProcessBody request)
      (fun go t => wp (if go = true then feed (httpsTlsCallback request) rest index buffer else pure false)
        (fun _ => Delivers (delivered s.events ++
          deliveredAfter request.responseMode contentLength content rest))
        (fun _ => Delivers (delivered s.events ++
          deliveredAfter request.responseMode contentLength content rest)) t)
      (fun _ => Delivers (delivered s.events ++
        deliveredAfter request.responseMode contentLength content rest)) s := by
  cases hmode : request.responseMode with
  | streamBody =>
      rw [wp_httpsProcessBody_stream hmode hs, deliveredAfter]
      refine ⟨fun hnil => ?_, fun hne => ?_⟩
      · subst hnil
        exact feed_streamed hmode hcontinue rest hrest hindex buffer hs
      refine wp_mono (hcontinue.invoke _ s) ?_ (fun _ _ h => h.elim)
      intro cr t hpost
      obtain ⟨rfl, ht⟩ := hpost
      have hbytes : delivered t.events = delivered s.events ++ content := by
        rw [ht.events, delivered_body hs.buffer]
      refine ⟨fun h => absurd rfl h, fun _ => ⟨fun hdone => ?_, fun hmore => ?_⟩⟩
      · have hlast : content ≠ [] ∧ contentLength ≤ sizeT content.length := ⟨hne, hdone⟩
        rw [if_pos hlast]
        refine wp_mono (hcontinue.invoke 0 t) ?_ (fun _ _ h => h.elim)
        intro _ u hpost
        obtain ⟨-, hu⟩ := hpost
        right
        rw [hu.events, delivered, List.take_zero, hbytes, List.append_nil]
      · have hnext := feed_streamed hmode hcontinue rest hrest hindex buffer
          (hs.congr ht.context ht.buffer).clear
        have hlate : ¬(content ≠ [] ∧ contentLength ≤ sizeT content.length) := fun h => by omega
        rw [if_neg hlate, ← List.append_assoc, ← hbytes]
        exact hnext
  | waitForCompleteBody =>
      rw [wp_httpsProcessBody_wait hmode hs, deliveredAfter]
      refine ⟨fun hmissing => feed_collected hmode hcontinue rest hmissing hindex buffer hs,
        fun hdone => ?_⟩
      refine wp_mono (hcontinue.invoke _ s) ?_ (fun _ _ h => h.elim)
      intro _ t hpost
      obtain ⟨-, ht⟩ := hpost
      right
      rw [ht.events, delivered_body hs.buffer, collected_done hdone]

end Feed

section Headers

-- The header block of a response with status 200, up to and including the
-- first empty line.
structure HeaderBlock (header : Bytes) : Prop where
  ends : find crlfcrlf header = some (header.length - 4)
  noNul : (0 : UInt8) ∉ header
  status : ∃ minor rest, isDigit minor = true ∧ (∀ b ∈ rest.head?, isDigit b = false) ∧
    header = ascii "HTTP/1." ++ minor :: ascii " 200" ++ rest

theorem HeaderBlock.length {header : Bytes} (h : HeaderBlock header) : 4 ≤ header.length := by
  have := find_bound h.ends
  rw [length_crlfcrlf] at this
  omega

theorem HeaderBlock.incomplete {header received : Bytes} (h : HeaderBlock header)
    (hinitial : received <+: header) (hlen : received.length < header.length) :
    find crlfcrlf (cstr received) = none := by
  have hzero : (0 : UInt8) ∉ received := fun hmem => h.noNul (hinitial.subset hmem)
  rw [cstr_of_notMem _ hzero, List.prefix_iff_eq_take.mp hinitial]
  apply find_take_none h.ends
  have := h.length
  rw [length_crlfcrlf]
  omega

theorem HeaderBlock.complete {header : Bytes} (h : HeaderBlock header) (more : Bytes) :
    find crlfcrlf (cstr (header ++ more)) = some (header.length - 4) := by
  rw [cstr_append _ _ h.noNul]
  exact find_append h.ends _

-- "HTTP/1.x 200", with something else behind the status code.
theorem scanStatusLine_200 {minor : UInt8} (rest : Bytes) (hminor : isDigit minor = true)
    (hrest : ∀ b ∈ rest.head?, isDigit b = false) :
    ∃ n, scanStatusLine (ascii "HTTP/1." ++ minor :: ascii " 200" ++ rest) = some (1, n, 200) := by
  have hmajor : strtol (49 :: 46 :: minor :: 32 :: 50 :: 48 :: 48 :: rest) =
      some (1, 46 :: minor :: 32 :: 50 :: 48 :: 48 :: rest) :=
    strtol_digits [49] (by simp) (by simp [isDigit]) (by simp [isDigit])
  have hmiddle : strtol (minor :: 32 :: 50 :: 48 :: 48 :: rest) =
      some (clampInt (decimal [minor]), 32 :: 50 :: 48 :: 48 :: rest) :=
    strtol_digits [minor] (by simp) (by simpa using hminor) (by simp [isDigit])
  have hcode : strtol (50 :: 48 :: 48 :: rest) = some (200, rest) :=
    strtol_digits [50, 48, 48] (by simp) (by simp [isDigit]) hrest
  have hspace : strtol (32 :: 50 :: 48 :: 48 :: rest) = strtol (50 :: 48 :: 48 :: rest) := rfl
  have htext : ascii "HTTP/1." ++ minor :: ascii " 200" ++ rest =
      ascii "HTTP/" ++ 49 :: 46 :: minor :: 32 :: 50 :: 48 :: 48 :: rest := by
    simp [ascii]
  refine ⟨clampInt (decimal [minor]), ?_⟩
  generalize hversion : 49 :: 46 :: minor :: 32 :: 50 :: 48 :: 48 :: rest = version at hmajor htext
  have hinitial : (ascii "HTTP/").isPrefixOf (ascii "HTTP/" ++ version) = true := by simp
  have hdrop : (ascii "HTTP/" ++ version).drop 5 = version := rfl
  rw [htext, scanStatusLine, if_pos hinitial, hdrop, hmajor]
  simp only [hmiddle, hspace, hcode]

theorem HeaderBlock.accepted {header : Bytes} (h : HeaderBlock header) :
    acceptedLength (header.take (header.length - 4)) =
      (httpParseKeyValueInt (header.take (header.length - 4)) (ascii "Content-Length:")).map toSize := by
  obtain ⟨minor, rest, hminor, hrest, hheader⟩ := h.status
  have hlen := h.length
  have hstatus : (ascii "HTTP/1." ++ minor :: ascii " 200").length = 12 := by simp [ascii]
  have hend : 12 ≤ header.length - 4 := by
    by_contra hearly
    obtain ⟨-, ⟨more, hmore⟩, -⟩ := (find_eq_some_iff _ _ _).mp h.ends
    have hcr : header[header.length - 4]? = some 13 := by
      have := congrArg List.head? hmore
      rw [List.head?_drop] at this
      rw [← this]
      rfl
    rw [hheader, List.getElem?_append_left (by rw [hstatus, ← hheader]; omega)] at hcr
    have hmem := List.mem_of_getElem? hcr
    have hne : minor ≠ 13 := fun he => by simp [he, isDigit] at hminor
    simp [ascii, hne.symm] at hmem
  have htake : header.take (header.length - 4) =
      ascii "HTTP/1." ++ minor :: ascii " 200" ++ rest.take (header.length - 4 - 12) := by
    conv_lhs => rw [hheader]
    rw [List.take_append, hstatus, ← hheader, List.take_of_length_le (by omega)]
  obtain ⟨n, hscan⟩ := scanStatusLine_200 (rest.take (header.length - 4 - 12)) hminor (by
    intro b hb
    rw [List.head?_take] at hb
    split at hb
    · cases hb
    · exact hrest b hb)
  rw [htake, acceptedLength, hscan]
  simp

-- What the search of the code finds as the length of the body.
def headerLength (header : Bytes) : Option Int :=
  httpParseKeyValueInt (header.take (header.length - 4)) (ascii "Content-Length:")

theorem HeaderBlock.accepted_length {header : Bytes} (hheader : HeaderBlock header) :
    acceptedLength (header.take (header.length - 4)) = (headerLength header).map toSize := hheader.accepted

theorem HeaderBlock.found {header body received : Bytes} {i : Nat} (hheader : HeaderBlock header)
    (hinitial : received <+: header ++ body)
    (hfind : find crlfcrlf (cstr received) = some i) :
    i = header.length - 4 ∧ header.length ≤ received.length ∧
      received.take i = header.take (header.length - 4) := by
  have hfour := hheader.length
  have hle : header.length ≤ received.length := by
    by_contra hshort
    have hpart : received <+: header :=
      List.prefix_of_prefix_length_le hinitial (List.prefix_append header body) (by omega)
    rw [hheader.incomplete hpart (by omega)] at hfind
    cases hfind
  obtain ⟨more, rfl⟩ := List.prefix_of_prefix_length_le (List.prefix_append header body) hinitial hle
  rw [hheader.complete more, Option.some.injEq] at hfind
  subst hfind
  exact ⟨rfl, hle, List.take_append_of_le_length (by omega)⟩

theorem HeaderBlock.pending {header body received : Bytes} (hheader : HeaderBlock header)
    (hinitial : received <+: header ++ body) (hfind : find crlfcrlf (cstr received) = none) :
    received.length < header.length := by
  by_contra hlen
  obtain ⟨more, rfl⟩ :=
    List.prefix_of_prefix_length_le (List.prefix_append header body) hinitial (Nat.not_lt.mp hlen)
  rw [hheader.complete more] at hfind
  cases hfind

end Headers

section Response

variable {α : Type} {request : ValidRequest α} {s : Client α}

-- The TLS buffer after these reads.
def lastRead (buffer : Bytes) (reads : List Bytes) : Bytes :=
  reads.foldl (fun buffer fragment => store buffer 0 fragment) buffer

-- The reads that bring only a part of the headers have no effect of their own.
theorem feed_headers {header : Bytes} (hheader : HeaderBlock header) {R : Client α → Prop}
    (hover : ∀ t, Overflowed t → R t) (pre rest : List Bytes) {received : Bytes} {index : Nat}
    {buffer : Bytes} (hinitial : received ++ pre.flatten <+: header)
    (hlen : (received ++ pre.flatten).length < header.length)
    (hs : AwaitingHeaders received (s.atIndex index))
    (hnext : ∀ t, AwaitingHeaders (received ++ pre.flatten) (t.atIndex (index + pre.length)) →
      t.events = s.events →
      wp (feed (httpsTlsCallback request) rest (index + pre.length) (lastRead buffer pre))
        (fun _ => R) (fun _ => R) t) :
    wp (feed (httpsTlsCallback request) (pre ++ rest) index buffer) (fun _ => R) (fun _ => R) s := by
  induction pre generalizing received index buffer s with
  | nil => exact hnext s (by simpa using hs) rfl
  | cons fragment pre ih =>
      have hassoc : received ++ (fragment :: pre).flatten = received ++ fragment ++ pre.flatten := by
        simp
      rw [hassoc] at hinitial hlen
      have hpending : find crlfcrlf (cstr (received ++ fragment)) = none :=
        hheader.incomplete ((List.prefix_append _ _).trans hinitial)
          (by rw [List.length_append] at hlen; omega)
      simp only [List.cons_append, feed, wp_bind]
      refine wp_httpsTlsCallback_headers hs (fun _ => ?_) (fun _ t ht hst => ?_) ?_ ?_ ?_
      · exact wp_error_of_called fun t ht => hover t ht.overflowed
      · refine ih hinitial hlen (ht.later _) fun u hu huv => ?_
        have hcount : index + (fragment :: pre).length = index + 1 + pre.length := by
          rw [List.length_cons]
          omega
        rw [hassoc, hcount] at hnext
        exact hnext u hu (huv.trans hst.events)
      · intro _ i hfind
        rw [hpending] at hfind
        cases hfind
      · intro _ i _ hfind
        rw [hpending] at hfind
        cases hfind
      · intro _ i _ _ hfind
        rw [hpending] at hfind
        cases hfind

-- What a response delivers when `body` bytes come in the read that completes
-- its headers, and `rest` after that.
def responseDelivered (mode : HttpResponseMode) (header tlsBuffer : Bytes) (body : Nat)
    (rest : List Bytes) : Bytes :=
  match acceptedLength (header.take (header.length - 4)) with
  | none => []
  | some contentLength =>
      let content := (tlsBuffer.drop header.length).take body
      if content.length = body then deliveredAfter mode contentLength content rest else []

theorem feed_completes (hcontinue : AlwaysContinues request) {header body : Bytes}
    (hheader : HeaderBlock header) {received fragment : Bytes} {index : Nat}
    (buffer : Bytes) (rest : List Bytes) (hrest : ∀ f ∈ rest, f ≠ [])
    (hreceived : received ++ fragment = header ++ body)
    (hs : AwaitingHeaders received (s.atIndex index)) :
    wp (feed (httpsTlsCallback request) (fragment :: rest) index buffer)
      (fun _ => Delivers (delivered s.events ++
        responseDelivered request.responseMode header (store buffer 0 fragment) body.length rest))
      (fun _ => Delivers (delivered s.events ++
        responseDelivered request.responseMode header (store buffer 0 fragment) body.length rest)) s := by
  have hfound := hheader.complete body
  have hfour := hheader.length
  have htake : (header ++ body).take (header.length - 4) = header.take (header.length - 4) :=
    List.take_append_of_le_length (by omega)
  have hbytes : (header ++ body).length - (header.length - 4 + 4) = body.length := by
    rw [List.length_append]
    omega
  have hstart : header.length - 4 + 4 = header.length := by omega
  simp only [feed, wp_bind]
  refine wp_httpsTlsCallback_headers hs (fun _ => ?_) (fun _ t ht _ => ?_) ?_ ?_ ?_
  · exact wp_error_of_called fun t ht => .inl ht.overflowed
  · have hpending := ht.pending
    rw [hreceived, hfound] at hpending
    cases hpending
  · intro _ i hfind hreject t ht _
    rw [hreceived, hfound, Option.some.injEq] at hfind
    subst hfind
    rw [hreceived, htake] at hreject
    have hnone : responseDelivered request.responseMode header (store buffer 0 fragment) body.length rest =
        [] := by rw [responseDelivered, hreject]
    rw [hnone, List.append_nil]
    refine ⟨fun _ _ _ => .inr (by rw [ht.events]), fun error info _ _ => ?_⟩
    exact wp_error_of_called fun u hu => .inr (by rw [hu.events, delivered, ht.events])
  · intro _ i _ hfind hlong hshort _ t ht _
    rw [hreceived, hfound, Option.some.injEq] at hfind
    subst hfind
    rw [hreceived] at hlong hshort
    rw [List.length_append] at hlong hshort
    have hcut : (((store buffer 0 fragment).drop header.length).take body.length).length ≠ body.length := by
      rw [List.length_take, List.length_drop]
      omega
    right
    rw [responseDelivered]
    cases acceptedLength (header.take (header.length - 4)) with
    | none => rw [ht.events, List.append_nil]
    | some contentLength =>
        simp only [hcut, ite_false]
        rw [ht.events, List.append_nil]
  · intro _ i contentLength content hfind _ haccept hcontent hlen t ht hst _
    rw [hreceived, hfound, Option.some.injEq] at hfind
    subst hfind
    rw [hreceived, htake] at haccept
    rw [hreceived, hbytes] at hlen hcontent ht
    rw [hstart] at hcontent
    have hdelivers : responseDelivered request.responseMode header (store buffer 0 fragment) body.length
        rest = deliveredAfter request.responseMode contentLength content rest := by
      rw [responseDelivered, haccept]
      simp only [← hcontent, hlen, ite_true]
    rw [hdelivers, ← hst.events]
    rw [← hlen] at ht
    exact httpsProcessBody_feed hcontinue rest hrest (Nat.succ_ne_zero index) (store buffer 0 fragment) ht

-- The code's search finds a length that keeps it reading, and the body bytes
-- behind the headers are where it copies them from: at the same offset in the
-- TLS buffer, which is right if the headers come in one read.
structure Intact (mode : HttpResponseMode) (stale header body : Bytes) (pre : List Bytes)
    (fragment : Bytes) (rest : List Bytes) : Prop where
  value : ∃ contentLength,
    httpParseKeyValueInt (header.take (header.length - 4)) (ascii "Content-Length:") = some contentLength ∧
      ReadsOn mode (toSize contentLength) ((pre.flatten ++ fragment).length - header.length) rest
  copied : ((lastRead stale (pre ++ [fragment])).drop header.length).take
      ((pre.flatten ++ fragment).length - header.length) =
    body.take ((pre.flatten ++ fragment).length - header.length)

theorem responseDelivered_eq_iff (mode : HttpResponseMode) {header body : Bytes}
    (hheader : HeaderBlock header) (hbody : body ≠ []) (stale : Bytes) (pre : List Bytes)
    (fragment : Bytes) (rest : List Bytes) (hrest : ∀ f ∈ rest, f ≠ [])
    (hresponse : pre.flatten ++ fragment ++ rest.flatten = header ++ body)
    (hfragment : header.length ≤ (pre.flatten ++ fragment).length) :
    responseDelivered mode header (lastRead stale (pre ++ [fragment]))
        ((pre.flatten ++ fragment).length - header.length) rest = body ↔
      Intact mode stale header body pre fragment rest := by
  generalize hn : (pre.flatten ++ fragment).length - header.length = n
  generalize htls : lastRead stale (pre ++ [fragment]) = tls
  have hlength := congrArg List.length hresponse
  simp only [List.length_append] at hlength hn hfragment
  have hhead : (body.take n).length = n := by
    rw [List.length_take]
    omega
  have hsplit : body.take n ++ rest.flatten = body := by
    have hdrop := congrArg (List.drop (header.length + n)) hresponse
    rw [List.drop_append_of_le_length (by rw [List.length_append]; omega),
      List.drop_of_length_le (by rw [List.length_append]; omega), List.nil_append, List.drop_append,
      List.drop_of_length_le (by omega), List.nil_append, Nat.add_sub_cancel_left] at hdrop
    rw [hdrop, List.take_append_drop]
  have hiff : Intact mode stale header body pre fragment rest ↔
      (∃ contentLength, httpParseKeyValueInt (header.take (header.length - 4)) (ascii "Content-Length:") =
        some contentLength ∧ ReadsOn mode (toSize contentLength) n rest) ∧
      (tls.drop header.length).take n = body.take n := by
    rw [← hn, ← htls, ← List.length_append]
    exact ⟨fun h => ⟨h.value, h.copied⟩, fun h => ⟨h.1, h.2⟩⟩
  rw [hiff, responseDelivered, hheader.accepted]
  cases hparse : httpParseKeyValueInt (header.take (header.length - 4)) (ascii "Content-Length:") with
  | none => simpa using hbody.symm
  | some contentLength =>
      simp only [Option.map_some, Option.some.injEq, exists_eq_left']
      by_cases hcut : ((tls.drop header.length).take n).length = n
      · rw [if_pos hcut]
        conv_lhs => rw [← hsplit]
        rw [deliveredAfter_eq_iff mode _ rest hrest (hcut.trans hhead.symm) (by rw [hsplit]; exact hbody),
          hcut, and_comm]
      · rw [if_neg hcut]
        refine iff_of_false hbody.symm fun h => hcut ?_
        rw [h.2, hhead]

-- A response with status 200, cut into reads of which `fragment` is the one that
-- completes the headers.
theorem delivered_eq_iff (request : ValidRequest α) (hcontinue : AlwaysContinues request)
    {header body : Bytes} (hheader : HeaderBlock header) (hbody : body ≠ []) (reads : List ReadResult)
    (pre rest : List Bytes) (fragment stale : Bytes) (hreads : fragments reads = pre ++ fragment :: rest)
    (hresponse : (fragments reads).flatten = header ++ body) (hpre : pre.flatten.length < header.length)
    (hfragment : header.length ≤ (pre.flatten ++ fragment).length) (s t : Conn (Client α))
    (hs : s.client.events = [])
    (ht : final (wifiTlsReadLoop (httpsTlsCallback request) reads 0 stale) s = t)
    (hfits : ¬Overflowed t.client) :
    delivered t.client.events = body ↔
      Intact request.responseMode stale header body pre fragment rest := by
  subst ht
  rw [client_of_feed, hreads] at hfits ⊢
  have hrest : ∀ f ∈ rest, f ≠ [] := fun f hf =>
    fragments_ne_nil reads f (by rw [hreads]; simp [hf])
  rw [hreads] at hresponse
  simp only [List.flatten_append, List.flatten_cons, ← List.append_assoc] at hresponse
  have hstart := awaiting_start s.client
  have hinitial : pre.flatten <+: header := by
    refine List.prefix_of_prefix_length_le ?_ (List.prefix_append header body) (by omega)
    rw [← hresponse, List.append_assoc]
    exact List.prefix_append _ _
  generalize hn : (pre.flatten ++ fragment).length - header.length = n
  have hlength : (pre.flatten ++ fragment).length + rest.flatten.length =
      header.length + body.length := by
    rw [← List.length_append, hresponse, List.length_append]
  have hreceived : pre.flatten ++ fragment = header ++ body.take n := by
    have htake := congrArg (List.take (header.length + n)) hresponse
    rw [List.take_append_of_le_length (by omega), List.take_of_length_le (by omega)] at htake
    rw [htake, List.take_append, List.take_of_length_le (by omega), Nat.add_sub_cancel_left]
  have hhead : (body.take n).length = n := by
    rw [List.length_take]
    omega
  have htls : store (lastRead stale pre) 0 fragment = lastRead stale (pre ++ [fragment]) := by
    simp [lastRead]
  have hfeed : wp (feed (httpsTlsCallback request) (pre ++ fragment :: rest) 0 stale)
      (fun _ => Delivers (responseDelivered request.responseMode header
        (lastRead stale (pre ++ [fragment])) n rest))
      (fun _ => Delivers (responseDelivered request.responseMode header
        (lastRead stale (pre ++ [fragment])) n rest)) s.client := by
    apply feed_headers hheader (fun t ht => .inl ht) pre (fragment :: rest) hinitial hpre hstart
    intro t ht hevents
    have hcomplete := feed_completes hcontinue hheader (lastRead stale pre) rest hrest hreceived
      ht
    rw [hevents, hs, hhead, htls] at hcomplete
    exact hcomplete
  have hdelivers := final_of_wp (P := Delivers _) hfeed
  rw [hdelivers.resolve_left hfits, ← hn]
  exact responseDelivered_eq_iff request.responseMode hheader hbody stale pre fragment rest hrest hresponse
    hfragment

end Response

-- The headers of a response with one body byte, cut behind the status line.
def statusLine : Bytes := ascii "HTTP/1.1 200 OK\r\n"

def lengthField : Bytes := ascii "Content-Length: 1\r\n\r\n"

theorem exampleHeader : HeaderBlock (statusLine ++ lengthField) :=
  ⟨by decide, by decide, 49, ascii " OK\r\nContent-Length: 1\r\n\r\n", by decide, by simp [ascii, isDigit],
    by decide⟩

theorem exampleRequest_continues (responseMode : HttpResponseMode) :
    AlwaysContinues (exampleRequest responseMode) := fun _ _ _ => rfl

theorem oneRead_intact : Intact .streamBody staleBuffer (statusLine ++ lengthField) [97] []
    oneByteResponse.val [] :=
  (delivered_eq_iff (exampleRequest .streamBody) (exampleRequest_continues .streamBody) exampleHeader
    (by decide) [.wantRead, .data oneByteResponse, .eof] [] [] oneByteResponse.val staleBuffer rfl
    (by decide) (by decide) (by decide) exampleClient _ rfl rfl
    (by decide +kernel)).mp (by decide +kernel)

theorem delivered_depends_on_reads :
    ¬∀ (α : Type) (request : ValidRequest α) (header body : Bytes) (reads : List ReadResult)
      (stale : Bytes) (s t : Conn (Client α)), AlwaysContinues request → HeaderBlock header →
      body ≠ [] → httpParseKeyValueInt header (ascii "Content-Length:") = some (body.length : Int) →
      (fragments reads).flatten = header ++ body → s.client.events = [] →
      final (wifiTlsReadLoop (httpsTlsCallback request) reads 0 stale) s = t →
      ¬Overflowed t.client → delivered t.client.events = body := by
  intro h
  have hbody := h Unit (exampleRequest .streamBody) (statusLine ++ lengthField) [97]
    [.data ⟨statusLine, by decide⟩, .data ⟨lengthField ++ [97], by decide⟩] staleBuffer exampleClient _
    (exampleRequest_continues .streamBody) exampleHeader (by decide) (by decide +kernel)
    (by decide +kernel) rfl rfl (by decide +kernel)
  exact absurd hbody (by decide +kernel)

end Esp32Ota
