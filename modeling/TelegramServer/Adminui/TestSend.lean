import TelegramServer.Go.Utf8
import Mathlib.Tactic.Common

/-!
The test send of the admin pages (`internal/adminui/testsend.go`): one call of
`/v1/messages/direct` with the key the operator pasted, and the part of the
answer that is shown. The body of the answer is cut at `testSendBodyMax` bytes,
and a character that the cut runs through is dropped as well.
-/

namespace TelegramServer.Adminui

open Go Lib

def testSendBodyMax : ℕ := 4096

structure TestSendPayload where
  recipients : List ℤ
  appID : String
  text : String
  schemaVersion : ℕ

structure HttpRequest where
  url : String
  authorization : String
  contentType : String
  /-- The header is set only where there is a trace id. -/
  traceID : Option String
  body : Bytes

/-- An answer, and the bytes of its body up to its end or up to a read error. -/
structure HttpResponse where
  statusCode : ℕ
  traceID : String
  body : Bytes
  broken : Bool := false

/-- What `proxyTestSend` leaves to the configuration and to libraries. -/
structure TestSendEnv where
  serverURL : String
  traceID : String
  marshal : TestSendPayload → Except String Bytes
  /-- `http.NewRequestWithContext` refuses a malformed URL. -/
  newRequestErr : String → Option String
  send : HttpRequest → Except String HttpResponse
  statusText : ℕ → String
  /-- `json.Indent`, `none` where the bytes are not JSON. -/
  indent : Bytes → Option Bytes

structure TestSendResult where
  status : String
  ok : Bool
  body : Bytes
  truncated : Bool
  traceID : String

inductive TestSendErr
  | marshal (err : String)
  | request (err : String)
  | call (err : String)
  | read

/-- `io.ReadAll(io.LimitReader(resp.Body, limit))`. -/
def readLimited (limit : ℕ) (resp : HttpResponse) : Option Bytes :=
  if resp.broken && resp.body.length < limit then none else some (resp.body.take limit)

/-- At most `n` times: drop the last byte of bytes that are not valid. -/
def trimInvalid : ℕ → Bytes → Bytes
  | 0, raw => raw
  | n + 1, raw =>
      if raw ≠ [] ∧ utf8Valid raw = false then trimInvalid n raw.dropLast else raw

/-- The bytes that are shown, and whether the body was cut. -/
def truncateBody (raw : Bytes) : Bytes × Bool :=
  let truncated := decide (testSendBodyMax < raw.length)
  if truncated then (trimInvalid 3 (raw.take testSendBodyMax), true) else (raw, false)

def prettyJSON (env : TestSendEnv) (raw : Bytes) : Bytes := (env.indent raw).getD raw

/-- `strings.TrimRight(s, "/")`. -/
def trimSlashes (s : String) : String :=
  String.ofList (s.toList.reverse.dropWhile (· = '/')).reverse

def testSendRequest (env : TestSendEnv) (apiKey : String) (body : Bytes) : HttpRequest where
  url := trimSlashes env.serverURL ++ "/v1/messages/direct"
  authorization := "Bearer " ++ apiKey
  contentType := "application/json"
  traceID := nullIf env.traceID ""
  body := body

def testSendResult (env : TestSendEnv) (resp : HttpResponse) (raw : Bytes) : TestSendResult where
  status := toString resp.statusCode ++ " " ++ env.statusText resp.statusCode
  ok := 200 ≤ resp.statusCode && resp.statusCode < 300
  body := prettyJSON env (truncateBody raw).1
  truncated := (truncateBody raw).2
  traceID := resp.traceID

def proxyTestSend (env : TestSendEnv) (apiKey appID : String) (recipient : ℤ) (text : String) :
    Except TestSendErr TestSendResult :=
  match env.marshal ⟨[recipient], appID, text, 1⟩ with
  | .error e => .error (.marshal e)
  | .ok body =>
      let req := testSendRequest env apiKey body
      match env.newRequestErr req.url with
      | some e => .error (.request e)
      | none =>
          match env.send req with
          | .error e => .error (.call e)
          | .ok resp =>
              match readLimited (testSendBodyMax + 1) resp with
              | none => .error .read
              | some raw => .ok (testSendResult env resp raw)

/-! ### The cut -/

theorem trimInvalid_isPrefix (n : ℕ) (raw : Bytes) : trimInvalid n raw <+: raw := by
  induction n generalizing raw with
  | zero => exact List.prefix_rfl
  | succ n ih =>
      unfold trimInvalid
      split
      · exact (ih raw.dropLast).trans (List.dropLast_prefix raw)
      · exact List.prefix_rfl

/-- The loop stops at the last valid prefix, if that is near enough. -/
theorem trimInvalid_eq_take {n m : ℕ} {raw : Bytes} (hm : m ≤ raw.length)
    (hnear : raw.length ≤ m + n) (hvalid : utf8Valid (raw.take m) = true)
    (hlast : ∀ i, m < i → i ≤ raw.length → utf8Valid (raw.take i) = false) :
    trimInvalid n raw = raw.take m := by
  induction n generalizing raw with
  | zero => rw [trimInvalid, List.take_of_length_le (by omega)]
  | succ n ih =>
      unfold trimInvalid
      rcases hm.eq_or_lt with heq | hlt
      · -- the bytes are valid as they are
        rw [heq, List.take_length] at hvalid
        rw [heq, List.take_length, if_neg (by simp [hvalid])]
      · have hinvalid : utf8Valid raw = false := by
          simpa using hlast raw.length hlt le_rfl
        have hne : raw ≠ [] := List.ne_nil_of_length_pos (by omega)
        have hlen : raw.dropLast.length = raw.length - 1 := List.length_dropLast
        have htake (i : ℕ) (hi : i < raw.length) : raw.dropLast.take i = raw.take i := by
          rw [List.dropLast_eq_take, List.take_take, min_eq_left (by omega)]
        rw [if_pos ⟨hne, hinvalid⟩, ← htake m hlt]
        apply ih
        · omega
        · omega
        · rwa [htake m hlt]
        · intro i hi hlen'
          rw [htake i (by omega)]
          exact hlast i hi (by omega)

/-- The longest valid prefix of at most `max` bytes. -/
def LongestValid (max : ℕ) (body kept : Bytes) : Prop :=
  utf8Valid kept = true ∧
    ∀ p, p <+: body → p.length ≤ max → utf8Valid p = true → p <+: kept

/-- What the page keeps of a body. -/
structure KeptOf (body kept : Bytes) (truncated : Bool) : Prop where
  isPrefix : kept <+: body
  length_le : kept.length ≤ testSendBodyMax
  truncated_iff : truncated = true ↔ testSendBodyMax < body.length
  whole : body.length ≤ testSendBodyMax → kept = body
  valid : testSendBodyMax < body.length → utf8Valid body = true →
    LongestValid testSendBodyMax body kept ∧ testSendBodyMax ≤ kept.length + 3

theorem longestValid_trimInvalid {body : Bytes} {max : ℕ} (hlong : max < body.length)
    (hbody : utf8Valid body = true) :
    LongestValid max body (trimInvalid 3 (body.take max)) ∧
      max ≤ (trimInvalid 3 (body.take max)).length + 3 := by
  obtain ⟨m, hm, hnear, hcoded, hlast⟩ :=
    PrefixCode.exists_take_coded (utf8Valid_iff.mp hbody) hlong.le
  have hcut : (body.take max).length = max := by
    rw [List.length_take]
    omega
  have htake (i : ℕ) (hi : i ≤ max) : (body.take max).take i = body.take i := by
    rw [List.take_take, min_eq_left hi]
  have hinvalid (i : ℕ) (hi : m < i) (hmax : i ≤ max) : utf8Valid (body.take i) = false := by
    rw [Bool.eq_false_iff, ne_eq, utf8Valid_iff]
    exact hlast i hi hmax
  have hkept : trimInvalid 3 (body.take max) = body.take m := by
    rw [← htake m hm]
    apply trimInvalid_eq_take
    · omega
    · rw [hcut]
      exact hnear
    · rw [htake m hm]
      exact utf8Valid_iff.mpr hcoded
    · intro i hi hi'
      rw [hcut] at hi'
      rw [htake i hi']
      exact hinvalid i hi hi'
  rw [hkept]
  refine ⟨⟨utf8Valid_iff.mpr hcoded, fun p hp hpmax hpvalid => ?_⟩, ?_⟩
  · rw [List.prefix_iff_eq_take.mp hp]
    apply List.take_prefix_take_left
    by_contra hgt
    have hno := hinvalid p.length (by omega) hpmax
    rw [← List.prefix_iff_eq_take.mp hp] at hno
    rw [hpvalid] at hno
    exact Bool.noConfusion hno
  · have hthree : max ≤ m + 3 := hnear
    rw [List.length_take]
    omega

/-- The reading of one byte more than is shown decides what is shown. -/
theorem keptOf_truncateBody (body : Bytes) :
    KeptOf body (truncateBody (body.take (testSendBodyMax + 1))).1
      (truncateBody (body.take (testSendBodyMax + 1))).2 := by
  rcases lt_or_ge testSendBodyMax body.length with hlong | hshort
  · have hraw : testSendBodyMax < (body.take (testSendBodyMax + 1)).length := by
      rw [List.length_take]
      omega
    have hcut : (body.take (testSendBodyMax + 1)).take testSendBodyMax =
        body.take testSendBodyMax := by
      rw [List.take_take, min_eq_left (Nat.le_succ _)]
    have hpart := trimInvalid_isPrefix 3 (body.take testSendBodyMax)
    simp only [truncateBody, decide_eq_true hraw, if_true, hcut]
    refine ⟨hpart.trans (List.take_prefix _ _), ?_, iff_of_true rfl hlong,
      fun h => absurd hlong (not_lt.mpr h), fun _ hbody => longestValid_trimInvalid hlong hbody⟩
    exact hpart.length_le.trans (List.length_take_le _ _)
  · have hraw : body.take (testSendBodyMax + 1) = body :=
      List.take_of_length_le (by omega)
    simp only [truncateBody, hraw, decide_eq_false (not_lt.mpr hshort), Bool.false_eq_true,
      if_false]
    exact ⟨List.prefix_rfl, hshort, iff_of_false (by simp) (not_lt.mpr hshort), fun _ => rfl,
      fun h => absurd h (not_lt.mpr hshort)⟩

/-- Whatever the server answers, the page shows of it what `KeptOf` says. -/
theorem proxyTestSend_keptOf (env : TestSendEnv) (apiKey appID : String) (recipient : ℤ)
    (text : String) (body : Bytes) (resp : HttpResponse)
    (hmarshal : env.marshal ⟨[recipient], appID, text, 1⟩ = .ok body)
    (hurl : env.newRequestErr (testSendRequest env apiKey body).url = none)
    (hsend : env.send (testSendRequest env apiKey body) = .ok resp)
    (hread : ¬ (resp.broken = true ∧ resp.body.length ≤ testSendBodyMax)) :
    ∃ r kept, proxyTestSend env apiKey appID recipient text = .ok r ∧
      r.body = prettyJSON env kept ∧ KeptOf resp.body kept r.truncated := by
  have hraw : readLimited (testSendBodyMax + 1) resp =
      some (resp.body.take (testSendBodyMax + 1)) := by
    unfold readLimited
    rw [if_neg]
    simpa [Nat.lt_succ_iff] using hread
  refine ⟨testSendResult env resp (resp.body.take (testSendBodyMax + 1)),
    (truncateBody (resp.body.take (testSendBodyMax + 1))).1, ?_, rfl,
    keptOf_truncateBody resp.body⟩
  simp only [proxyTestSend, hmarshal, hurl, hsend, hraw]

/-- Where the limit runs through a character, what is before that character is kept. -/
theorem KeptOf.eq_of_cut {front rest kept : Bytes} {ch : Char} {truncated : Bool}
    (h : KeptOf (front ++ (String.utf8EncodeChar ch ++ rest)) kept truncated)
    (hfront : utf8Valid front = true) (hrest : utf8Valid rest = true)
    (hle : front.length ≤ testSendBodyMax)
    (hlt : testSendBodyMax < front.length + (String.utf8EncodeChar ch).length) : kept = front := by
  obtain ⟨cs, rfl⟩ := utf8Valid_iff.mp hfront
  obtain ⟨ds, rfl⟩ := utf8Valid_iff.mp hrest
  have hbody : utf8Valid (cs.flatMap utf8Code.code ++ (String.utf8EncodeChar ch ++
      ds.flatMap utf8Code.code)) = true := by
    refine utf8Valid_iff.mpr ⟨cs ++ ch :: ds, ?_⟩
    rw [List.flatMap_append, List.flatMap_cons]
    rfl
  have hlong : testSendBodyMax < (cs.flatMap utf8Code.code ++ (String.utf8EncodeChar ch ++
      ds.flatMap utf8Code.code)).length := by
    rw [List.length_append, List.length_append]
    omega
  obtain ⟨⟨hvalid, hlongest⟩, -⟩ := h.valid hlong hbody
  obtain ⟨p, rfl⟩ := hlongest _ (List.prefix_append _ _) hle hfront
  have hlength := h.length_le
  rw [List.length_append] at hlength
  have hpart : p <+: String.utf8EncodeChar ch :=
    List.prefix_of_prefix_length_le ((List.prefix_append_right_inj _).mp h.isPrefix)
      (List.prefix_append _ _) (by omega)
  by_contra hne
  have hp : p ≠ [] := fun hnil => hne (by rw [hnil, List.append_nil])
  have hshort : p.length < (String.utf8EncodeChar ch).length := by omega
  refine PrefixCode.not_coded_of_isPrefix (c := utf8Code) hpart hp hshort ?_
  exact PrefixCode.Coded.of_append ⟨cs, rfl⟩ (utf8Valid_iff.mp hvalid)

/-- An error text in Korean, at three bytes a character. -/
def koreanText (n : ℕ) : Bytes := (List.replicate n '가').flatMap String.utf8EncodeChar

theorem length_koreanText (n : ℕ) : (koreanText n).length = n * 3 := by
  have hchar : (String.utf8EncodeChar '가').length = 3 := by decide
  rw [koreanText, List.length_flatMap, List.map_replicate, List.sum_replicate_nat, hchar]

/-- A server that refuses every message at length. What is left of the answer after the cut is not
JSON. -/
def longErrorEnv : TestSendEnv where
  serverURL := "http://server/"
  traceID := "t-1"
  marshal p := .ok (utf8 ("\x7b\"app_id\":\"" ++ p.appID ++
    "\",\"envelope\":\x7b\"schema_version\":1,\"text\":\"" ++ p.text ++
    "\"\x7d,\"recipients\":[" ++ ",".intercalate (p.recipients.map toString) ++ "]\x7d"))
  newRequestErr _ := none
  send _ := .ok ⟨400, "t-1", utf8 "\x7b\"error\": \"" ++ koreanText 1400, false⟩
  statusText _ := "Bad Request"
  indent _ := none

/-- The cut runs through a character, of which two bytes are dropped. -/
theorem proxyTestSend_longError :
    ∃ r, proxyTestSend longErrorEnv "key" "news" 7 "hello" = .ok r ∧ r.truncated = true ∧
      r.body = utf8 "\x7b\"error\": \"" ++ koreanText 1361 ∧ r.body.length = 4094 := by
  have hcoded (n : ℕ) : utf8Valid (koreanText n) = true := utf8Valid_iff.mpr ⟨_, rfl⟩
  have hopening : utf8Code.Coded (utf8 "\x7b\"error\": \"") :=
    ⟨"\x7b\"error\": \"".toList, by decide +kernel⟩
  have hopeningLength : (utf8 "\x7b\"error\": \"").length = 11 := by decide +kernel
  have hsplit : koreanText 1400 =
      koreanText 1361 ++ (String.utf8EncodeChar '가' ++ koreanText 38) := by
    rw [koreanText, koreanText, koreanText, ← List.flatMap_cons, ← List.replicate_succ,
      ← List.flatMap_append, ← List.replicate_add]
  obtain ⟨r, kept, hr, hbody, hkept⟩ := proxyTestSend_keptOf longErrorEnv "key" "news" 7 "hello" _
    ⟨400, "t-1", utf8 "\x7b\"error\": \"" ++ koreanText 1400, false⟩ rfl rfl rfl (by simp)
  have hlong : testSendBodyMax < (utf8 "\x7b\"error\": \"" ++ koreanText 1400).length := by
    rw [List.length_append, length_koreanText, hopeningLength]
    decide
  have htruncated := hkept.truncated_iff.mpr hlong
  have hlength : (utf8 "\x7b\"error\": \"" ++ koreanText 1361).length = 4094 := by
    rw [List.length_append, length_koreanText, hopeningLength]
  have hshown : kept = utf8 "\x7b\"error\": \"" ++ koreanText 1361 := by
    rw [hsplit, ← List.append_assoc] at hkept
    refine hkept.eq_of_cut ?_ (hcoded 38) (by rw [hlength]; decide) (by rw [hlength]; decide)
    exact utf8Valid_iff.mpr (hopening.append (utf8Valid_iff.mp (hcoded 1361)))
  have hraw : r.body = utf8 "\x7b\"error\": \"" ++ koreanText 1361 := by
    rw [hbody, hshown]
    rfl
  exact ⟨r, hr, htruncated, hraw, by rw [hraw, hlength]⟩

end TelegramServer.Adminui
