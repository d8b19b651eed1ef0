import Mathlib.Data.List.DropRight
import Shadownet.Identifiers.Addresses
import Shadownet.Interop.Authorization
import Shadownet.Provider.Served
import Shadownet.Python.Loads
import Shadownet.Python.StatusFetch

/-!
# Fetching AgentCards

The part of `shadownet/agentcard.py` that fetches a card over HTTP, against the identity server of
the provider.

* `fetch_after_run`: what the SDK gets for a Shadowname after any run of the provider.
-/

namespace Shadownet.Cards

open Foundation Python
open Receiver (ProviderRecord)
open Identifiers (LowerLocal LowerAlnum)

/-! ## The fetcher -/

/-- What is read of an `httpx.Response`. -/
structure CardHttpResponse where
  statusCode : Nat
  content : Bytes
  cacheControl : Option Text
  etag : Option Text

/-- What fetching calls: `client.get`, and `int` of a text, where `none` is a `ValueError`. -/
structure CardClient where
  get : Text → Py CardHttpResponse
  int : Text → Option Int

/-- A verified card with the cache fields of its response. -/
structure CachedCard where
  card : FetchedAgentCard
  cacheMaxAge : Option Int
  etag : Option Text

def directAgentCardPath : Text := text "/.well-known/agent-card.json"

/-- `s.rstrip("/")`. -/
def rstripSlash (s : Text) : Text := s.rdropWhile (· == 47)

/-- `_agent_card_url_for_shadowname`. -/
def agentCardUrlForShadowname (G : Runtime) (shadowname : Text) (record : ProviderRecord) :
    Py Text := do
  let canonical ← validateShadowname G shadowname
  let (loc, provider) := partitionAt canonical
  if provider ≠ record.domain then
    throw (agentCardError (text "shadowname provider " ++ G.reprStr provider ++
      text " does not match record domain " ++ G.reprStr record.domain))
  else pure (rstripSlash record.endpoint ++ (text "/identity/" ++ loc))

/-- The exceptions of `response.json()` that `_interpret_card_response` turns into its own. -/
def interpretCardJson (G : Runtime) (J : JsonRuntime) (content : Bytes) (url : Text) : Py Dict := do
  let body ← reraise [.jsonDecodeError]
    (fun exc => agentCardError (text "AgentCard " ++ G.reprStr url ++ text " not valid JSON: " ++
      exc.msg))
    (responseObject J content)
  match body with
  | none =>
    throw (agentCardError (text "AgentCard " ++ G.reprStr url ++ text " is not a JSON object"))
  | some card => pure card

/-- `_interpret_card_response`; the headers stay in the response. -/
def interpretCardResponse (G : Runtime) (J : JsonRuntime) (response : CardHttpResponse)
    (url : Text) : Py (Dict × CardHttpResponse) :=
  if response.statusCode ≠ 200 then
    throw (agentCardError (text "AgentCard " ++ G.reprStr url ++ text " returned HTTP " ++
      decimal response.statusCode))
  else do
    let card ← interpretCardJson G J response.content url
    pure (card, response)

/-- `client.get(url)`, with `httpx.HTTPError` turned into an `AgentCardError`. -/
def getCard (G : Runtime) (C : CardClient) (url : Text) : Py CardHttpResponse :=
  reraise [.httpError]
    (fun exc => agentCardError (text "fetch failed for " ++ G.reprStr url ++ text ": " ++ exc.msg))
    (C.get url)

/-- `fetch_agent_card_json`. -/
def fetchAgentCardJson (G : Runtime) (J : JsonRuntime) (C : CardClient) (shadowname : Text)
    (record : ProviderRecord) : Py (Dict × CardHttpResponse) := do
  let url ← agentCardUrlForShadowname G shadowname record
  let response ← getCard G C url
  interpretCardResponse G J response url

/-- `fetch_direct_agent_card_json`. -/
def fetchDirectAgentCardJson (G : Runtime) (J : JsonRuntime) (C : CardClient)
    (endpointOrigin : Text) : Py (Dict × CardHttpResponse) := do
  let url := rstripSlash endpointOrigin ++ directAgentCardPath
  let response ← getCard G C url
  interpretCardResponse G J response url

/-- `_attach_cache_headers`. -/
def attachCacheHeaders (G : Runtime) (C : CardClient) (verified : FetchedAgentCard)
    (headers : CardHttpResponse) : CachedCard :=
  ⟨verified, parseMaxAge G C.int headers.cacheControl, headers.etag⟩

/-- `fetch_and_verify_agent_card`, and its asynchronous sibling with `await` before the fetch. -/
def fetchAndVerifyAgentCard (G : Runtime) (J : JsonRuntime) (C : CardClient) (shadowname : Text)
    (record : ProviderRecord) : Py CachedCard := do
  let (card, headers) ← fetchAgentCardJson G J C shadowname record
  let verified ← verifyAgentCard G J card record shadowname
  pure (attachCacheHeaders G C verified headers)

/-- `fetch_and_verify_direct_agent_card`, and its asynchronous sibling. -/
def fetchAndVerifyDirectAgentCard (G : Runtime) (J : JsonRuntime) (C : CardClient)
    (endpointOrigin expectedPublicKey : Text) : Py CachedCard := do
  let (card, headers) ← fetchDirectAgentCardJson G J C endpointOrigin
  let verified ← verifySelfSignedAgentCard G J card expectedPublicKey
  pure (attachCacheHeaders G C verified headers)

theorem interpretCardResponse_dict (G : Runtime) (J : JsonRuntime) (response : CardHttpResponse)
    {card : Dict} (hstatus : response.statusCode = 200)
    (hload : jsonLoads J response.content = .ok (.obj card.members)) (url : Text) :
    interpretCardResponse G J response url = .ok (card, response) := by
  rw [interpretCardResponse, if_neg (not_not.mpr hstatus), interpretCardJson,
    responseObject_dict hload]
  rfl

/-! ## The headers of the identity server -/

theorem itoaLoop_eq (n : Nat) (buf : Bytes) :
    Provider.itoaLoop n buf = (if n = 0 then [] else bytes n.repr) ++ buf := by
  induction n using Nat.strong_induction_on generalizing buf with
  | _ n ih =>
    rw [Provider.itoaLoop]
    by_cases hn : n = 0
    · rw [if_pos hn, if_pos hn, List.nil_append]
    have hdigit : ∀ d : Fin 10, bytes (d : Nat).repr = [UInt8.ofNat (0x30 + d)] := by decide
    have hlast := hdigit ⟨n % 10, Nat.mod_lt _ (by decide)⟩
    rw [if_neg hn, if_neg hn, ih _ (Nat.div_lt_self (Nat.pos_of_ne_zero hn) (by decide)),
      ← List.singleton_append, ← hlast]
    by_cases hlt : n < 10
    · have hdiv : n / 10 = 0 := Nat.div_eq_of_lt hlt
      simp only [hdiv, if_pos, List.nil_append, Nat.mod_eq_of_lt hlt]
    · have hdiv : n / 10 ≠ 0 := by omega
      rw [if_neg hdiv, ← List.append_assoc, ← bytes_append,
        ← Nat.repr_eq_repr_append_repr (not_lt.mp hlt)]

theorem itoa_of_pos {n : Int} (hn : 0 < n) : Provider.itoa n = utf8 (intText n) := by
  have hrepr : intText n = natText n.natAbs := by
    rw [intText, if_neg (by omega)]
  rw [Provider.itoa, if_neg (by omega), if_neg (by omega), itoaLoop_eq, if_neg (by omega),
    List.append_nil, bytes_repr, hrepr]

theorem intText_chars {n : Int} (hn : 0 < n) {c : CodePoint} (hc : c ∈ intText n) :
    48 ≤ c.val ∧ c.val ≤ 57 := by
  rw [intText, if_neg (by omega)] at hc
  exact isDigit_of_mem_natText hc

/-- `_parse_max_age` of one directive. -/
theorem parseMaxAge_single (G : Runtime) (int : Text → Option Int) {n : Int} (hn : 0 < n) :
    parseMaxAge G int (some (text "max-age=" ++ intText n)) = int (intText n) := by
  have hfixed : ∀ c ∈ text "max-age=" ++ intText n,
      c ≠ 44 ∧ isSpace c = false ∧ c.IsAscii ∧ lowerAscii c = c := by
    refine List.forall_mem_append.mpr ⟨?_, fun c hc => ?_⟩
    · have hall : (text "max-age=").all (fun c => decide (c ≠ 44 ∧ isSpace c = false ∧ c.IsAscii ∧
          lowerAscii c = c)) = true := by
        decide
      exact fun c hc => of_decide_eq_true (List.all_eq_true.mp hall c hc)
    · obtain ⟨hlow, hhigh⟩ := intText_chars hn hc
      refine ⟨?_, ?_, ?_, ?_⟩
      · rintro rfl
        exact absurd hlow (by decide)
      · simp only [isSpace, Bool.or_eq_false_iff, Bool.and_eq_false_iff, decide_eq_false_iff_not,
          beq_eq_false_iff_ne]
        omega
      · exact (show c.val < 0x80 by omega)
      · rw [lowerAscii, if_neg (by omega)]
  have hsplit : (text "max-age=" ++ intText n).splitOn 44 = [text "max-age=" ++ intText n] :=
    List.splitOn_eq_singleton fun hc => (hfixed 44 hc).1 rfl
  have hlower : G.lower (text "max-age=" ++ intText n) = text "max-age=" ++ intText n := by
    rw [Identifiers.lower_ascii fun c hc => (hfixed c hc).2.2.1]
    exact (List.map_congr_left fun c hc => (hfixed c hc).2.2.2).trans (List.map_id' _)
  have hne : text "max-age=" ++ intText n ≠ [] := List.append_ne_nil_of_left_ne_nil (by decide) _
  rw [parseMaxAge, if_neg hne, hsplit, maxAgeIn, strip_eq_self fun c hc => (hfixed c hc).2.1]
  simp only [hlower]
  rw [if_pos (List.isPrefixOf_iff_prefix.mpr (List.prefix_append _ _))]
  rfl

theorem cacheControl_latin {n : Int} (hn : 0 < n) :
    (Provider.cacheControlHeader n).map Interop.latin = text "max-age=" ++ intText n := by
  have hascii : ∀ c ∈ text "max-age=" ++ intText n, c.IsAscii := by
    refine List.forall_mem_append.mpr ⟨?_, fun c hc => ?_⟩
    · have hall : (text "max-age=").all (fun c => decide c.IsAscii) = true := by decide
      exact fun c hc => of_decide_eq_true (List.all_eq_true.mp hall c hc)
    · obtain ⟨-, hhigh⟩ := intText_chars hn hc
      exact (show c.val < 0x80 by omega)
  rw [Provider.cacheControlHeader, itoa_of_pos hn, ← utf8_text, ← utf8_append,
    Interop.map_latin_utf8 hascii]

/-! ## The identity server behind the client -/

/-- A response as `httpx` shows it; the headers are ASCII. -/
def received (r : Go.Response) : CardHttpResponse where
  statusCode := r.status
  content := r.body
  cacheControl := (r.headers.lookup (bytes "Cache-Control")).map fun v => v.map Interop.latin
  etag := (r.headers.lookup (bytes "ETag")).map fun v => v.map Interop.latin

/-- A local part that a URL path keeps: `.` and `..` are taken out on the way. -/
structure Segment (loc : Text) : Prop where
  lowerLocal : LowerLocal loc
  dot : loc ≠ text "."
  dots : loc ≠ text ".."

/-- A request to the endpoint of the record reaches a server, which sees the local part. -/
def Reaches (C : CardClient) (record : ProviderRecord) (server : Bytes → Go.Response) : Prop :=
  ∀ loc, Segment loc →
    C.get (rstripSlash record.endpoint ++ (text "/identity/" ++ loc)) =
      .ok (received (server (utf8 loc)))

theorem lower_utf8_local (G : Go.Runtime) {loc : Text} (h : LowerLocal loc) :
    G.lower (utf8 loc) = utf8 loc := by
  have hascii : ∀ c ∈ loc, c.IsAscii :=
    Interop.localRe_ascii (Identifiers.localRe_iff.mpr (.inl h.localBody))
  rw [Interop.lower_utf8 G hascii, List.map_congr_left fun c hc =>
    Interop.lowerRune_ascii G (hascii c hc),
    h.lower]

theorem utf8_local_ne_nil {loc : Text} (h : LowerLocal loc) : utf8 loc ≠ [] := by
  obtain ⟨c, t, rfl⟩ := List.exists_cons_of_length_pos h.pos
  exact List.append_ne_nil_of_left_ne_nil (utf8Char_ne_nil c) _

theorem agentCardUrl_eq {G : Runtime} {n loc : Text} {record : ProviderRecord}
    (hname : validateShadowname G n = .ok (loc ++ 64 :: record.domain))
    (hat : (64 : CodePoint) ∉ loc) :
    agentCardUrlForShadowname G n record =
      .ok (rstripSlash record.endpoint ++ (text "/identity/" ++ loc)) := by
  rw [agentCardUrlForShadowname, hname, ok_bind, Interop.partitionAt_of_not_mem hat]
  exact if_neg (not_not.mpr rfl)

section
variable {σ : Type} {G : Go.Runtime} {S : Go.Signer} {h : Provider.Handler}
  {I : Provider.StoreImpl σ} {Takes : Bytes → Prop} [DecidablePred Takes]
  {cardOf : σ → Provider.Directory}

/-- After any run of the provider, the SDK gets for a Shadowname the key and the URL of the newest
card that was added under it, with the `max-age` and the tag the provider announces; without such a
card it raises. -/
theorem fetch_after_run (hI : Provider.Implements I Takes cardOf) (hd : Provider.Deployed G h)
    (es : List Provider.Event) (hvalid : Provider.ValidTexts G Takes es) (G' : Runtime)
    (J : JsonRuntime) (C : CardClient) (record : ProviderRecord) (enc : Bytes)
    (hdomain : h.providerDomain = utf8 record.domain) (hgenuine : Genuine G' S h.signer)
    (henc : Go.encodePubKey (Go.publicKey h.signer) = .ok enc)
    (hkey : Interop.decoded enc ∈ record.providerKeys)
    (hreaches : Reaches C record fun p => Provider.answer G S h I es p [])
    (hint : ∀ n : Int, C.int (intText n) = some n) (n loc : Text)
    (hname : validateShadowname G' n = .ok (loc ++ 64 :: record.domain)) (hloc : Segment loc)
    (htakes : Takes (utf8 loc)) :
    (∃ c body f, Newest (Provider.writes G Takes es) (utf8 loc) (some c) ∧
      c.signCard G S h.providerDomain h.signer = .ok body ∧
      fetchAndVerifyAgentCard G' J C n record = .ok f ∧
      f.card.shadowname = loc ++ 64 :: record.domain ∧
      utf8 f.card.shadowPublicKey = c.shadowPublicKey ∧ utf8 f.card.endpointUrl = c.a2aURL ∧
      f.cacheMaxAge = some h.maxAge ∧
      f.etag = some ((Provider.etag G body).map Interop.latin)) ∨
    (∀ c, ¬ Newest (Provider.writes G Takes es) (utf8 loc) (some c)) ∧
      fetchAndVerifyAgentCard G' J C n record = .error (agentCardError (text "AgentCard " ++
        G'.reprStr (rstripSlash record.endpoint ++ (text "/identity/" ++ loc)) ++
        text " returned HTTP " ++ decimal (404 : Nat))) := by
  have hat := hloc.lowerLocal.at_not_mem
  have hpart : partitionAt (loc ++ 64 :: record.domain) = (loc, record.domain) :=
    Interop.partitionAt_of_not_mem hat
  have hclean : Clean record.domain := by
    obtain ⟨loc', D, heq, hloc', hD, hclean⟩ := Interop.validateShadowname_parts hname
    rw [((List.append_cons_inj_of_notMem hloc' hD).mp heq.symm).2.2] at hclean
    exact hclean
  have hlower : G.lower (utf8 loc) = utf8 loc := lower_utf8_local G hloc.lowerLocal
  have hne : G.lower (utf8 loc) ≠ [] := by
    rw [hlower]
    exact utf8_local_ne_nil hloc.lowerLocal
  have htakes' : Takes (G.lower (utf8 loc)) := by
    rwa [hlower]
  have hfetched : fetchAgentCardJson G' J C n record =
      interpretCardResponse G' J (received (Provider.answer G S h I es (utf8 loc) []))
        (rstripSlash record.endpoint ++ (text "/identity/" ++ loc)) := by
    rw [fetchAgentCardJson, agentCardUrl_eq hname hat, ok_bind, getCard, hreaches loc hloc]
    rfl
  rw [fetchAndVerifyAgentCard, hfetched]
  by_cases hreg : ∃ c, Newest (Provider.writes G Takes es) (utf8 loc) (some c)
  · obtain ⟨c, hc⟩ := hreg
    have hc' : Newest (Provider.writes G Takes es) (G.lower (utf8 loc)) (some c) := by
      rwa [hlower]
    obtain ⟨body, hbody, hanswer⟩ :=
      @Provider.answer_signed _ _ S _ _ _ _ _ hI hd _ hvalid _ _ hne htakes' hc'
    have hsign := hbody
    rw [hdomain] at hsign
    obtain ⟨card, f, hload, hf, hfname, hpk, hurl⟩ := verifyAgentCard_of_signCard G G' J S hname
      (by rw [hpart]) hclean hgenuine henc hkey hsign
    have hmax : 0 < h.maxAge := by
      rw [Provider.Handler.maxAge]
      split_ifs <;> omega
    have hread := interpretCardResponse_dict G' J
      (received (Provider.cardResponse G h body)) rfl hload
    have hage : parseMaxAge G' C.int (received (Provider.cardResponse G h body)).cacheControl =
        some h.maxAge := by
      have hheader : (received (Provider.cardResponse G h body)).cacheControl =
          some ((Provider.cacheControlHeader h.maxAge).map Interop.latin) := rfl
      rw [hheader, cacheControl_latin hmax, parseMaxAge_single G' C.int hmax, hint]
    refine .inl ⟨c, body, attachCacheHeaders G' C f (received (Provider.cardResponse G h body)), hc,
      hbody, ?_, hfname, hpk, hurl, hage, rfl⟩
    rw [hanswer, if_neg (Provider.etag_ne_nil body).symm, hread, ok_bind]
    dsimp only
    rw [hf]
    rfl
  · refine .inr ⟨not_exists.mp hreg, ?_⟩
    have hno : ∀ c, ¬ Newest (Provider.writes G Takes es) (G.lower (utf8 loc)) (some c) := by
      rw [hlower]
      exact not_exists.mp hreg
    rw [Provider.answer_of_unregistered hI hne htakes' hno]
    rfl

end

/-! ### One card over the network -/

theorem decimalValue_natText (n : Nat) : decimalValue (natText n) = n := by
  induction n using Nat.strong_induction_on with
  | _ n ih =>
    have hdigit : ∀ d : Fin 10, natText d = [digitText d] ∧ (digitText d).val - 48 = d := by decide
    by_cases hlt : n < 10
    · obtain ⟨htext, hval⟩ := hdigit ⟨n, hlt⟩
      rw [htext, decimalValue, List.foldl_cons, List.foldl_nil, hval, Nat.zero_mul, Nat.zero_add]
    · obtain ⟨-, hval⟩ := hdigit ⟨n % 10, Nat.mod_lt _ (by decide)⟩
      have hhead := ih (n / 10) (by omega)
      rw [decimalValue] at hhead
      dsimp only at hval
      rw [natText_of_ge (not_lt.mp hlt), decimalValue, List.foldl_append, hhead, List.foldl_cons,
        List.foldl_nil, hval]
      omega

/-- `int` of a decimal text. -/
def readDecimal (s : Text) : Option Int :=
  if s.head? = some 45 then some (-(decimalValue s.tail)) else some (decimalValue s : Int)

theorem readDecimal_intText (n : Int) : readDecimal (intText n) = some n := by
  rw [intText, readDecimal]
  split_ifs with hn hminus hminus
  · rw [List.tail_cons, decimalValue_natText]
    exact congrArg some (by omega)
  · exact absurd rfl hminus
  · exact absurd (isDigit_of_mem_natText (List.mem_of_mem_head? hminus)) (by decide)
  · rw [decimalValue_natText]
    exact congrArg some (by omega)

/-- The client of a network in which `https://a.co` is the provider of the sample. -/
def sampleCardClient : CardClient where
  get url :=
    if (text "https://a.co/identity/").isPrefixOf url then
      .ok (received (Provider.answer Interop.plainGo sampleSign Provider.sampleHandler
        Provider.sqlite Provider.sampleRun (utf8 (url.drop 22)) []))
    else throw ⟨.httpError, text "no route"⟩
  int := readDecimal

theorem reaches_sample : Reaches sampleCardClient cardRecord fun p => Provider.answer
    Interop.plainGo sampleSign Provider.sampleHandler Provider.sqlite Provider.sampleRun p [] := by
  intro loc _
  have hurl : rstripSlash cardRecord.endpoint ++ (text "/identity/" ++ loc) =
      text "https://a.co/identity/" ++ loc := by
    have hstrip : rstripSlash cardRecord.endpoint ++ text "/identity/" =
        text "https://a.co/identity/" := by decide
    rw [← List.append_assoc, hstrip]
  have hlen : (text "https://a.co/identity/").length = 22 := by decide
  have hstart : (text "https://a.co/identity/").isPrefixOf (text "https://a.co/identity/" ++ loc) =
      true :=
    List.isPrefixOf_iff_prefix.mpr (List.prefix_append _ _)
  rw [hurl, sampleCardClient]
  dsimp only
  rw [if_pos hstart, List.drop_append_of_le_length hlen.ge, ← hlen, List.drop_length,
    List.nil_append]

theorem segment_sample : Segment (text "b") where
  lowerLocal := by
    refine ⟨by decide, by decide, fun c hc => ?_⟩
    obtain rfl : c = 98 := List.mem_singleton.mp hc
    exact .inl (.inr ⟨by decide, by decide⟩)
  dot := by decide
  dots := by decide

theorem fetch_after_run_sample : ∃ f,
    fetchAndVerifyAgentCard (verifyOf sampleSign) Interop.plainJson sampleCardClient
      (text "b@a.co") cardRecord = .ok f ∧
    utf8 f.card.shadowPublicKey = sampleRecord.shadowPublicKey ∧ f.cacheMaxAge = some 3600 := by
  have hlower : Interop.plainGo.lower (bytes "B") = utf8 (text "b") :=
    Provider.lower_sample.trans (utf8_text "b").symm
  have hnewest := Provider.newest_sample
  rw [hlower] at hnewest
  rcases fetch_after_run (S := sampleSign) Provider.sqlite_implements Provider.deployed_sample
    Provider.sampleRun Provider.validTexts_sample (verifyOf sampleSign) Interop.plainJson
    sampleCardClient cardRecord _ (by decide) (genuine_verifyOf _) encodePubKey_sample (by decide)
    reaches_sample readDecimal_intText (text "b@a.co") (text "b") (by decide) segment_sample trivial
    with ⟨c, body, f, hc, -, hf, -, hpk, -, hage, -⟩ | ⟨hno, -⟩
  · have heq := (replay_eq_some_iff.mpr hc).symm.trans (replay_eq_some_iff.mpr hnewest)
    rw [Option.some.inj heq] at hpk
    exact ⟨f, hf, hpk, hage⟩
  · exact absurd hnewest (hno _)

end Shadownet.Cards
