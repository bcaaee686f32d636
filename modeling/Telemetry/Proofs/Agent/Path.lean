import Mathlib.Data.Bool.AllAny
import Telemetry.Proofs.Agent.Http
import Telemetry.Proofs.Envelope
import Telemetry.Proofs.Net.Uri
import Telemetry.Proofs.Server.Path
import Telemetry.Proofs.Url.Base

/-!
Metrics in paths on their way. Main statement: a metric that is sent by its path lands under its id
with the value in the form of a path, unless there are tabs or line breaks in the id or it is a dot
or two: then it lands under the id that is left without them, or nowhere.
-/
namespace Telemetry.Agent.HttpSender

open Url (Escapes)

variable {sender : HttpSender} {m : Metric}

/-! ### The request -/

def emptyRequest (url : Url) (tag : Option String) : Request :=
  { method := "POST", target := url.target
    headers := ("content-type", Bytes.ofText "text/plain") :: tagHeader tag }

def pathSegments (m : Metric) : List String :=
  ["update", m.kind.name, m.id, m.value.toPathSegment].foldl Url.appendSegment [""]

def pathUrl (sender : HttpSender) (m : Metric) :
    Url := { sender.base with path := .segments (pathSegments m) }

theorem pathRequest_eq (root : sender.base.path = .segments [""]) (m : Metric) :
    sender.pathRequest m =
      .ok (sender.pathUrl m, emptyRequest (sender.pathUrl m) (sender.sealing.sign [])) := by
  have whole : Url.dropLastEmpty [""] = [""] := by decide
  simp only [pathRequest, place, Url.extend?, root, whole, ok_bind]
  rfl

theorem headerValues_emptyRequest (url : Url) (tag : Option String) :
    (emptyRequest url tag).headerValues "hashsha256" = (tag.map Bytes.ofText).toList ∧
      (emptyRequest url tag).headerValues "accept-encoding" = [] := by
  cases tag <;> simp [Request.headerValues, emptyRequest, tagHeader, lowercase_names]

theorem prefersGzip_emptyRequest (url : Url) (tag : Option String) :
    Server.prefersGzip (emptyRequest url tag) = false := by
  rw [Server.prefersGzip, Server.acceptedCodings, (headerValues_emptyRequest url tag).2]
  rfl

theorem openPayload_emptyRequest {σ : Type} {server : Server σ} {sealing : Envelope.Sealing}
    (shared : server.opening.key = none ∨ server.opening.key = sealing.key) (url : Url) :
    server.openPayload (emptyRequest url (sealing.sign [])) = .ok [] := by
  apply Server.openPayload_nil rfl
  rcases shared with unkeyed | same
  · rw [Envelope.Opening.authenticate, unkeyed]
  · have tag : (emptyRequest url (sealing.sign [])).header? "hashsha256" = sealing.sign [] := by
      rw [Request.header?, (headerValues_emptyRequest url _).1, Envelope.Sealing.sign]
      cases sealing.key with
      | none => rfl
      | some key => exact Mac.ofHeader_sign [] key
    rw [tag]
    exact Envelope.authenticate_sign (fun _ asked => same.symm.trans asked) []

/-! ### The path -/

theorem pathSegments_eq (m : Metric) : pathSegments m =
    Url.appendSegment (Url.appendSegment ["update", m.kind.name] m.id) m.value.toPathSegment := by
  have update : Url.appendSegment [""] "update" = ["update"] := by decide +kernel
  have kind : ∀ kind : Kind, Url.appendSegment ["update"] kind.name = ["update", kind.name] := by
    intro kind
    cases kind <;> decide +kernel
  rw [pathSegments, List.foldl_cons, update, List.foldl_cons, kind]
  rfl

theorem pathSegments_of_segment (finite : m.value.isFinite) (noDot : Url.dropIgnored m.id ≠ ".")
    (noDots : Url.dropIgnored m.id ≠ "..") : pathSegments m =
      ["update", m.kind.name, Url.encode Url.plainSegment (Url.dropIgnored m.id),
        m.value.toPathSegment] := by
  rw [pathSegments_eq, Url.appendSegment_eq noDot noDots, if_neg (by simp),
    Url.appendSegment_value (Value.writes_toPathSegment finite) (by simp)]
  rfl

theorem pathSegments_of_dots (finite : m.value.isFinite)
    (dots : Url.dropIgnored m.id = "." ∨ Url.dropIgnored m.id = "..") :
    pathSegments m = ["update", m.kind.name, m.value.toPathSegment] ∨
      pathSegments m = ["update", m.kind.name, "", m.value.toPathSegment] ∨
      pathSegments m = ["update", "", m.value.toPathSegment] := by
  have value := fun list => @Url.appendSegment_value _ list _ (Value.writes_toPathSegment finite)
  rw [pathSegments_eq]
  rcases Url.appendSegment_dots dots (by simp : ["update", m.kind.name] ≠ [""]) with
    same | same | same
  · exact .inl (by rw [same, value _ (by simp)]; rfl)
  · exact .inr (.inl (by rw [same, value _ (by simp)]; rfl))
  · exact .inr (.inr (by rw [same, value _ (by simp)]; rfl))

theorem target_emptyRequest {url : Url} {list : List String} (path : url.path = .segments list)
    (tag : Option String) :
    (emptyRequest url tag).target.toList =
      (Url.pathText (.segments list)).toList ++ (Url.queryText url.query).toList := by
  rw [← path, ← String.toList_append]
  rfl

/-! ### What becomes of it -/

/-- A request is that of an update by its path, with the parts of a metric, and makes the metric
land. -/
structure Updates (server : Server Memory) (request : Request) (m : Metric) (value : String) :
    Prop where
  finite : m.value.isFinite
  routed : ∃ name, Escapes name m.id ∧
    Route.ofPath? request.path = some (.updatePath m.kind.name name value) ∧
    Server.readPath m.kind.name name value = .ok m
  lands : ∀ memory, server.Lands request m memory

section Arrival

variable {server : Server Memory} {url : Url} {tag : Option String}
  (opened : server.openPayload (emptyRequest url tag) = .ok []) (finite : m.value.isFinite)
include opened finite

theorem updates_of_segment {id name : String}
    (path : url.path = .segments ["update", m.kind.name, name, m.value.toPathSegment])
    (escapes : Escapes name id) (named : id ≠ "") (inMemory : server.storage = Memory.storage)
    (instant : server.writeTime = 0) :
    Updates server (emptyRequest url tag) ⟨id, m.value.inPath⟩ m.value.toPathSegment := by
  have writes := Value.writes_toPathSegment finite
  have kind : Metric.kind ⟨id, m.value.inPath⟩ = m.kind := Value.kind_inPath m.value
  have routed :=
    Server.routed_updatePath (target_emptyRequest path tag) (takeWhile_queryText url.query) escapes
      writes.nonempty writes.positional
  have read :=
    @Server.readPath_eq ⟨id, m.value.inPath⟩ name m.value.toPathSegment escapes named writes
  have stores := @Server.stores_updatePath ⟨id, m.value.inPath⟩ name m.value.toPathSegment server []
    escapes named
    writes inMemory instant
  rw [← kind] at routed
  refine ⟨Value.isFinite_inPath finite, ⟨name, escapes, routed, read⟩, ?_⟩
  intro memory
  have takes :
      server.Takes (emptyRequest url tag) [⟨id, m.value.inPath⟩] (fun _ _ => True) memory :=
    Server.takes_of_stores rfl (prefersGzip_emptyRequest url tag) opened routed rfl (stores memory)
      fun _ _ _ => trivial
  exact takes.lands named

theorem respond_of_nameless
    (path : url.path = .segments ["update", m.kind.name, m.value.toPathSegment] ∨
      url.path = .segments ["update", m.kind.name, "", m.value.toPathSegment] ∨
      url.path = .segments ["update", "", m.value.toPathSegment]) (memory : Memory) :
    (server.respond (emptyRequest url tag) memory).1.status = 404 ∧
      (server.respond (emptyRequest url tag) memory).2 = memory := by
  have writes := Value.writes_toPathSegment finite
  have query := takeWhile_queryText url.query
  -- too few parts have no route; an empty name has one, whose handler refuses it
  rcases path with two | three | two
  · have unrouted :=
      Server.unrouted_update (target_emptyRequest two tag) query (Url.escapes_kind m.kind)
        writes.positional
    exact Server.respond_unrouted opened unrouted rfl
  · have routed := Server.routed_updatePath (target_emptyRequest three tag) query Url.escapes_empty
      writes.nonempty
      writes.positional
    exact Server.respond_nameless opened routed rfl
      ((Url.escapes_positional writes.positional).decode "value")
  · have unrouted :=
      Server.unrouted_update (target_emptyRequest two tag) query Url.escapes_empty writes.positional
    exact Server.respond_unrouted opened unrouted rfl

end Arrival

/-! ### The URL -/

/-- Below a host whose text is an authority, a URL that is not too long is one that requests can be
made to. -/
theorem isReachable_pathUrl {authority : Authority} (http : sender.base.scheme = "http")
    (root : sender.base.authority = some authority)
    (plain : Net.Uri.isAuthority (Url.Authority.place authority).toList = true)
    (query : sender.base.query = none) (fragment : sender.base.fragment = none)
    (short : (sender.pathUrl m).publicText.utf8ByteSize < Net.Uri.lengthLimit) :
    isReachable (sender.pathUrl m) = true := by
  have empty : ∀ segment ∈ [""], ∀ c ∈ segment.toList, Url.IsSegmentChar c :=
    List.forall_mem_singleton.2 Url.escapes_empty.inside
  have segments := Url.inside_extended empty ["update", m.kind.name, m.id, m.value.toPathSegment]
  have inside := Url.forall_pathText (p := fun c => Net.Uri.isPathChar c = true) (by decide)
    fun segment member c here => (segments segment member c here).2.1
  have text :
      (sender.pathUrl m).publicText.toList = 'h' :: 't' :: 't' :: 'p' :: ':' :: '/' :: '/' ::
        ((Url.Authority.place authority).toList ++
          (Url.pathText (.segments (pathSegments m))).toList) := by
    simp [Url.publicText, Url.target, pathUrl, http, root, query, fragment, Url.queryText,
      String.toList_append]
  have valid :=
    Net.Uri.isValid_of_parts text short plain (Url.head?_pathText (pathSegments m)) inside
  have scheme : (sender.pathUrl m).scheme = "http" := http
  rw [isReachable, scheme, valid]
  rfl

section Sent

variable {place slash : List Char} {sealing : Envelope.Sealing} {format : WireFormat}
  {opening : Envelope.Opening} (maxBody timeout : Nat)

/-- The request for a metric below the address of a server brings what is left of its id, if a
segment can stand for that; otherwise it is not found. -/
theorem respond_pathRequest (finite : m.value.isFinite)
    (shared : opening.key = none ∨ opening.key = sealing.key) :
    let server := Server.setUp Memory.storage opening maxBody timeout
    let request := emptyRequest (sender.pathUrl m) (sealing.sign [])
    (Url.IsSegmentText (Url.dropIgnored m.id) →
      Updates server request ⟨Url.dropIgnored m.id, m.value.inPath⟩ m.value.toPathSegment) ∧
    (¬ Url.IsSegmentText (Url.dropIgnored m.id) → ∀ memory,
      (server.respond request memory).1.status = 404 ∧
        (server.respond request memory).2 = memory) := by
  intro server request
  have opened : server.openPayload request = .ok [] := openPayload_emptyRequest shared _
  constructor
  · intro text
    have path := pathSegments_of_segment finite text.noDot text.noDots
    have escapes := Url.escapes_encode Url.staysInside_plainSegment (Url.dropIgnored m.id)
    exact updates_of_segment opened finite (congrArg UrlPath.segments path) escapes text.nonempty
      rfl rfl
  · intro few
    apply respond_of_nameless opened finite
    rcases Url.dropIgnored_cases m.id with text | empty | dots
    · exact absurd text few
    · have path := pathSegments_of_segment finite (by rw [empty]; decide) (by rw [empty]; decide)
      have nothing : Url.encode Url.plainSegment "" = "" := by decide
      rw [empty, nothing] at path
      exact .inr (.inl (congrArg UrlPath.segments path))
    · have path := pathSegments_of_dots finite dots
      exact path.imp (congrArg UrlPath.segments)
        (Or.imp (congrArg UrlPath.segments) (congrArg UrlPath.segments))

/-- A metric that is sent by its path to the address of a server, which has the key of the sender or
none, lands under its id with the value that the text in the path stands for, if a segment can stand
for the id: if it is neither empty nor a dot or two and has no tabs and line breaks. Under an id
that has some it never lands; it lands under what is left without them, if that is another text for
a segment. Any other metric is not found, and nothing is touched. -/
theorem path_requests_land (solid : ∀ c ∈ place, Url.IsPlaceChar c)
    (ends : slash = [] ∨ slash = ['/'])
    (made : ofBase (Url.addressText place slash) sealing format = .ok sender)
    (shared : opening.key = none ∨ opening.key = sealing.key) (finite : m.value.isFinite) :
    let server := Server.setUp Memory.storage opening maxBody timeout
    ∃ url request, sender.pathRequest m = .ok (url, request) ∧
      (∀ authority, sender.base.authority = some authority →
        Net.Uri.isAuthority (Url.Authority.place authority).toList = true →
        url.publicText.utf8ByteSize < Net.Uri.lengthLimit → isReachable url = true) ∧
      (Url.IsSegmentText m.id →
        Updates server request ⟨m.id, m.value.inPath⟩ m.value.toPathSegment) ∧
      (¬ Url.IsSegmentText m.id → Url.IsSegmentText (Url.dropIgnored m.id) →
        Url.dropIgnored m.id ≠ m.id ∧
        Updates server request ⟨Url.dropIgnored m.id, m.value.inPath⟩ m.value.toPathSegment) ∧
      (¬ Url.IsSegmentText (Url.dropIgnored m.id) → ∀ memory,
        (server.respond request memory).1.status = 404 ∧
          (server.respond request memory).2 = memory) := by
  intro server
  rw [ofBase] at made
  split at made
  case h_2 => cases made
  case h_1 url parsed =>
    obtain ⟨scheme, -, root, query, fragment⟩ := Url.parse_address solid ends parsed
    cases made
    obtain ⟨lands, lost⟩ :=
      @respond_pathRequest ⟨url, sealing, format⟩ m sealing opening maxBody timeout finite shared
    refine ⟨_, _, pathRequest_eq root m, ?_, ?_, ?_, lost⟩
    · intro authority there plain short
      exact isReachable_pathUrl scheme there plain query fragment short
    · intro text
      have kept := Url.dropIgnored_of_none text.solid
      rw [kept] at lands
      exact lands text
    · intro other text
      refine ⟨?_, lands text⟩
      intro kept
      rw [kept] at text
      exact other text

def localSender (sealing : Envelope.Sealing) : HttpSender :=
  { base :=
      { scheme := "http", authority := some { host := "localhost", port := some 8080 }
        path := .segments [""] }
    sealing, format := .path }

theorem ofBase_local (sealing : Envelope.Sealing) :
    ofBase (Url.addressText "localhost:8080".toList []) sealing .path =
      .ok (localSender sealing) := by
  have parsed : Url.parse (Url.addressText "localhost:8080".toList []) =
      some (localSender {}).base := by
    decide +kernel
  rw [ofBase, parsed]
  rfl

/-- Negative zero under an id with a slash, a blank and a letter that is not ASCII, signed, to a
server that decrypts. -/
theorem path_request_lands_with_slash :
    let sealing : Envelope.Sealing := { key := some [0x6b] }
    let server :=
      Server.setUp Memory.storage ⟨some [0x6b], some Rsa.PrivateKey.mersenneKey, none⟩ 1024 1000
    let m : Metric := ⟨"a/b é", .gauge .negativeZero⟩
    ∃ url request, (localSender sealing).pathRequest m = .ok (url, request) ∧
      isReachable url = true ∧
      (server.respond request {}).1.status = 200 ∧
        Memory.get m.key (server.respond request {}).2 = .ok m := by
  intro sealing server m
  have solid : ∀ c ∈ "localhost:8080".toList, Url.IsPlaceChar c :=
    List.all_iff_forall_prop.1 (by decide)
  have text : Url.IsSegmentText m.id := .of_kept (by decide) (by decide) (by decide) (by decide)
  obtain ⟨url, request, made, reachable, lands, -⟩ :=
    path_requests_land 1024 1000 solid (.inl rfl) (ofBase_local sealing)
      (.inr rfl : (⟨some [0x6b], some Rsa.PrivateKey.mersenneKey, none⟩ : Envelope.Opening).key =
        none ∨ _)
      (by decide : m.value.isFinite)
  have exact : m.value.inPath = m.value := by decide +kernel
  have short : ((localSender sealing).pathUrl m).publicText.utf8ByteSize < Net.Uri.lengthLimit := by
    decide +kernel
  have place := pathRequest_eq (rfl : (localSender sealing).base.path = .segments [""]) m
  obtain ⟨rfl, -⟩ := Prod.mk.inj (Except.ok.inj (made.symm.trans place))
  obtain ⟨status, found⟩ := ((lands text).lands {}).own
  rw [exact] at found
  exact ⟨_, _, made, reachable _ rfl (by decide +kernel) short, status, found⟩

/-- A tab is lost on the way: the metric is stored under another id, and not under its own. -/
theorem tab_lost_from_path :
    let server := Server.setUp Memory.storage {} 1024 1000
    let m : Metric := ⟨"a\tb", .gauge .zero⟩
    m.id ≠ "" ∧ m.value.isFinite ∧
      ∃ url request, (localSender {}).pathRequest m = .ok (url, request) ∧
      isReachable url = true ∧ (server.respond request {}).1.status = 200 ∧
      Memory.get m.key (server.respond request {}).2 = .error (.notFound m.key) ∧
      Memory.get ⟨"ab", .gauge⟩ (server.respond request {}).2 = .ok ⟨"ab", .gauge .zero⟩ := by
  intro server m
  have dropped : Url.dropIgnored m.id = "ab" := by decide
  have text : Url.IsSegmentText (Url.dropIgnored m.id) := by
    rw [dropped]
    exact .of_kept (by decide) (by decide) (by decide) (by decide)
  have exact : m.value.inPath = .gauge .zero := by decide +kernel
  have short : ((localSender {}).pathUrl m).publicText.utf8ByteSize < Net.Uri.lengthLimit := by
    decide +kernel
  have reachable := isReachable_pathUrl (rfl : (localSender {}).base.scheme = "http") rfl
    (by decide +kernel) rfl rfl short
  have made := pathRequest_eq (rfl : (localSender {}).base.path = .segments [""]) m
  have lands :=
    (@respond_pathRequest (localSender {}) m (localSender {}).sealing {} 1024 1000 (by decide)
      (.inl rfl)).1 text
  generalize emptyRequest _ _ = request at made lands
  rw [dropped, exact] at lands
  obtain ⟨status, found⟩ := (lands.lands {}).own
  have others := (lands.lands {}).others m.key (by decide)
  exact ⟨by decide, by decide, _, _, made, reachable, status, others, found⟩

end Sent

end Telemetry.Agent.HttpSender
