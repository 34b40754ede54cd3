/-
# Listed tools

A tools/list takes one response per page; the tools of all pages are written as one message, whose
id is that of the first page.  The message is written in ASCII, so that it is one piece of the
recorded text, and its tools are the definitions of all pages, each where it appeared first
(`recorded_of_list`).  With the call's part this is the whole of what is recorded
(`recorded_is_received`).
-/

import ClioQueue.McpRunner.ResponseReadings

namespace ClioQueue.McpRunner

open Wire

section

variable {φ : Type} [JsonText φ]

/-- A definition is added unless an equal one is there. -/
def addFirst (tools : List (Value (Number φ))) (tool : Value (Number φ)) : List (Value (Number φ)) :=
  if tools.any (·.plain = tool.plain) then tools else tools ++ [tool]

/-- Every definition once, in the order of first appearance. -/
def firstAppearances (tools : List (Value (Number φ))) : List (Value (Number φ)) :=
  tools.foldl addFirst []

/-! ### Collecting -/

/-- Every tool stands under its name. -/
def Named (tools : ToolsByName φ) : Prop :=
  ∀ e ∈ tools, ∃ d, e.2 = .dict d ∧ Value.Distinct (.dict d) ∧ Fields.get d "name" = .str e.1

theorem name_of_plain {d d' : Fields (Number φ)} {name name' : String}
    (hd : Value.Distinct (.dict d)) (hd' : Value.Distinct (.dict d'))
    (hname : Fields.get d "name" = .str name) (hname' : Fields.get d' "name" = .str name')
    (h : Value.plain (.dict d) = Value.plain (.dict d')) : name = name' := by
  have hfields : Value.plainFields d = Value.plainFields d' := Value.dict.inj h
  have hget := Value.get_plainFields hd.1 "name"
  have hget' := Value.get_plainFields hd'.1 "name"
  rw [hname] at hget
  rw [hname', ← hfields, hget] at hget'
  exact Value.str.inj hget'

/-- Collecting the tools of a page adds those whose names are new, in the order of the page, and
drops the others. -/
theorem collectTools_ok {values : List (Value (Number φ))} :
    ∀ {tools tools' : ToolsByName φ}, collectTools values tools = .ok tools' →
      (∀ value ∈ values, value.Distinct) → Named tools →
      Named tools' ∧ tools'.map Prod.snd = values.foldl addFirst (tools.map Prod.snd) := by
  induction values with
  | nil =>
    intro tools tools' h _ hnamed
    cases h
    exact ⟨hnamed, rfl⟩
  | cons value values ih =>
    intro tools tools' h hdist hnamed
    have hv := hdist value List.mem_cons_self
    have hvalues := fun other hmem => hdist other (List.mem_cons_of_mem _ hmem)
    cases value with
    | null | bool _ | num _ | str _ | list _ => cases h
    | dict d =>
      rw [collectTools] at h
      split at h
      · rename_i name hname
        split at h
        · cases h
        · split at h
          · rename_i existing hlook
            split at h
            · rename_i hsame
              have hadd : addFirst (tools.map Prod.snd) (.dict d) = tools.map Prod.snd := by
                refine if_pos (List.any_eq_true.2 ⟨existing, ?_, by simpa using hsame⟩)
                exact List.mem_map.2 ⟨_, mem_of_lookup hlook, rfl⟩
              rw [List.foldl_cons, hadd]
              exact ih h hvalues hnamed
            · cases h
          · rename_i hlook
            split at h
            · cases h
            · have hfresh : ¬ (tools.map Prod.snd).any (·.plain = (Value.dict d).plain) := by
                intro hany
                obtain ⟨other, hother, hsame⟩ := List.any_eq_true.1 hany
                obtain ⟨e, he, rfl⟩ := List.mem_map.1 hother
                obtain ⟨_, hd', hdist', hname'⟩ := hnamed e he
                have heq := name_of_plain hdist' hv hname' hname (by simpa [hd'] using hsame)
                exact mem_keys_iff_lookup.1 (List.mem_map.2 ⟨e, he, heq⟩) hlook
              have hadd : addFirst (tools.map Prod.snd) (.dict d) =
                  (tools ++ [(name, Value.dict d)]).map Prod.snd := by
                rw [addFirst, if_neg hfresh, List.map_append]
                rfl
              rw [List.foldl_cons, hadd]
              refine ih h hvalues fun e he => ?_
              rcases List.mem_append.1 he with he | he
              · exact hnamed e he
              · rw [List.mem_singleton.1 he]
                exact ⟨d, rfl, hv, hname⟩
      · cases h

/-- What has been collected are the tools of the pages. -/
structure Collected (listing : Listing φ) : Prop where
  named : Named listing.toolsByName
  tools : listing.toolsByName.map Prod.snd = firstAppearances (listing.results.flatMap pageTools)

omit [JsonText φ] in
theorem nextPage_ok {nextCursor : Value (Number φ)} {listing listing' : Listing φ} {more : Bool}
    (h : nextPage nextCursor listing = .ok (more, listing')) :
    listing'.toolsByName = listing.toolsByName ∧ listing'.results = listing.results := by
  cases nextCursor with
  | null =>
    cases h
    exact ⟨rfl, rfl⟩
  | str =>
    rw [nextPage] at h
    split at h
    · cases h
    · cases h
      exact ⟨rfl, rfl⟩
  | bool _ | num _ | list _ | dict _ => cases h

/-- A page that is added to a listing keeps it collected: the tools so far are the first appearances
over all pages. -/
theorem addPage_ok {result : Fields (Number φ)} {listing listing' : Listing φ} {more : Bool}
    (h : addPage result listing = .ok (more, listing')) (hdist : Value.Distinct (.dict result))
    (hlisting : Collected listing) : Collected listing' := by
  rw [addPage] at h
  have hpage := hdist.get "tools"
  split at h
  · rename_i rawTools htools
    rw [htools] at hpage
    split at h
    · cases h
    · rename_i tools hcollect
      obtain ⟨_, hmap⟩ :=
        collectTools_ok hcollect (Value.distinctItems_iff.1 hpage) hlisting.named
      obtain ⟨hsame, hresults⟩ := nextPage_ok h
      have hpageTools : pageTools result = rawTools := by rw [pageTools, htools]
      refine ⟨by rwa [hsame], ?_⟩
      rw [hsame, hresults, hmap, hlisting.tools, firstAppearances, firstAppearances,
        ← List.foldl_append, List.flatMap_append, List.flatMap_singleton, hpageTools]
  · cases h

/-! ### The pages -/

variable {σ : Type} {s s' : Stdio σ}
  {message : Fields (Number φ)} {listing : Listing φ} {returncode : Option Int}

theorem distinct_message {line : Text} (h : decodedJsonObject line = some message) :
    Value.Distinct (.dict message) := by
  rw [decodedJsonObject] at h
  split at h
  · rename_i _ hloads
    cases h
    exact JsonText.distinct_loads line _ hloads
  · cases h

omit [JsonText φ] in
theorem distinct_result {result : Fields (Number φ)} (hdist : Value.Distinct (.dict message))
    (h : resultOf message = some result) : Value.Distinct (.dict result) := by
  have hget := hdist.get "result"
  rw [resultOf] at h
  split at h
  · rename_i _ hread
    cases h
    rwa [hread] at hget
  · cases h

/-- The first line that is waited for is a message with the page's id. -/
theorem listPages_ok {allowed : Nat} :
    ∀ {listing listing' : Listing φ} {s : Stdio σ},
      listPages returncode allowed listing s = .ok (some listing') s' → Collected listing →
      Collected listing' ∧ ∃ taken, Takes s taken s' ∧
        ∃ line ∈ taken, carries φ (pageId listing.pages) line = true := by
  induction allowed with
  | zero =>
    intro listing listing' s h _
    exact not_fails h
  | succ allowed ih =>
    intro listing listing' s h hlisting
    rw [listPages] at h
    obtain ⟨response, _, hwait, h⟩ := bind_eq_ok h
    obtain ⟨before, line, htakes, hdec, hid⟩ := waitForResponse_ok hwait
    have hline : carries φ (pageId listing.pages) line = true := by
      rw [carries, hdec]
      exact hid
    have hmem : line ∈ before ++ [line] := by simp
    by_cases herr : (response.get "error").isNull = true
    · rw [if_neg (by simp [herr])] at h
      rcases hres : resultOf response with _ | result
      · simp only [hres] at h
        exact not_fails h
      · simp only [hres] at h
        have hdist := distinct_result (distinct_message hdec) hres
        rcases hadd : addPage result listing with message | added
        · simp only [hadd] at h
          exact not_fails h
        · obtain ⟨more, added⟩ := added
          have hadded := addPage_ok hadd hdist hlisting
          rcases more with _ | _
          · simp only [hadd] at h
            cases h
            exact ⟨hadded, before ++ [line], htakes, line, hmem, hline⟩
          · simp only [hadd] at h
            obtain ⟨hcoll, taken, hlater, -⟩ := ih h hadded
            exact ⟨hcoll, _, htakes.trans hlater, line, List.mem_append_left _ hmem, hline⟩
    · rw [if_pos (by simp [herr])] at h
      cases h

/-- A finished listing: the lines that were taken, and after them the message for all pages. -/
theorem receiveList_ok (h : receiveList returncode s = .ok (some listing) s') :
    Collected listing ∧ ∃ taken bytes, s.events = taken.map .line ++ s'.events ∧
      s'.lines = s.lines ++ (taken ++ [lineOf (aggregate listing bytes).asciiCompact]) ∧
      ∃ line ∈ taken, carries φ (responseId .toolsList) line = true := by
  rw [receiveList] at h
  obtain ⟨⟨⟩, _, hreset, h⟩ := bind_eq_ok h
  obtain ⟨_, _, hwait, h⟩ := bind_eq_ok h
  obtain ⟨_, _, hfirst, -, -⟩ := waitForResponse_ok hwait
  rw [runBoundedToolsList] at h
  obtain ⟨⟨⟩, _, hagain, h⟩ := bind_eq_ok h
  obtain ⟨_, s₄, hlist, h⟩ := bind_eq_ok h
  obtain ⟨⟨⟩, _, happend, h⟩ := bind_eq_ok h
  cases h
  have hempty : Collected (⟨[], [], 0, []⟩ : Listing φ) :=
    ⟨fun e he => absurd he List.not_mem_nil, rfl⟩
  obtain ⟨hcoll, taken, htakes, line, hmem, hline⟩ := listPages_ok hlist hempty
  have hall := (hfirst.reset hreset).trans (htakes.reset hagain)
  cases happend
  refine ⟨hcoll, _, s₄.responseBytes, hall.events, ?_, line, List.mem_append_right _ hmem, hline⟩
  show s₄.lines ++ [_] = _
  rw [hall.lines, List.append_assoc]
  rfl

/-! ### What is recorded of a list -/

omit [JsonText φ] in
theorem distinct_aggregate (h : Named listing.toolsByName) (bytes : Nat) :
    Value.Distinct (aggregate listing bytes) := by
  have htools : Value.DistinctItems (listing.toolsByName.map Prod.snd) := by
    refine Value.distinctItems_iff.2 fun item hitem => ?_
    obtain ⟨e, he, rfl⟩ := List.mem_map.1 hitem
    obtain ⟨d, hd, _, -⟩ := h e he
    rwa [hd]
  simp [aggregate, Value.Distinct, Value.DistinctFields, htools, toolsListPaginationKey]

/-- The message for all pages is read back from its piece of the text. -/
theorem decoded_aggregate (h : Named listing.toolsByName) (bytes : Nat) :
    ∃ message, decodedJsonObject (aggregate listing bytes).asciiCompact = some message ∧
      (message.get "id").isStr (responseId .toolsList) = true ∧
      splitPagination (resultOf message) =
        (some [("tools", .list (listing.toolsByName.map Prod.snd))],
          some (.dict [("pages", .num (.int listing.pages)),
            ("tools", .num (.int listing.toolsByName.length)),
            ("response_bytes", .num (.int bytes)),
            ("limits", .dict [("max_pages", .num (.int toolsListMaxPages)),
              ("max_tools", .num (.int toolsListMaxTools)),
              ("max_response_bytes", .num (.int toolsListMaxResponseBytes))])])) := by
  have hread := JsonText.loads_asciiCompact _ (distinct_aggregate h bytes)
  refine ⟨_, by rw [decodedJsonObject, hread]; rfl, ?_, ?_⟩
  · rfl
  · rfl

/-- The recorded result of a finished listing holds the tools of all its pages, each name at its
first appearance, if its last answer is given once and the late lines do not repeat it. -/
theorem recorded_of_list {available : Nat} {bridge : σ} {texts : List Text}
    {ended : Ended (Option (Listing φ))}
    (h : runMcpSession φ .toolsList (receiveList returncode) available (texts.map (fun text => .line (lineOf text)) ++ [.closed]) bridge = some ended)
    (hrecv : ended.received = some (some listing))
    (hone : texts.countP (carries φ (responseId .toolsList)) = 1)
    (honce : ∀ line ∈ ended.late, ReadsOnce φ (responseId .toolsList) line) :
    (writeMcpResult .toolsList ended.stdout).protocolResult =
      some [("tools", Value.list (firstAppearances (listing.results.flatMap pageTools)))] := by
  obtain ⟨s, hsess, hlines, hlate⟩ := runMcpSession_received h hrecv
  obtain ⟨hcoll, taken, bytes, hevs, htaken, line, hmem, hline⟩ := receiveList_ok hsess
  have hevs' : (texts.map lineOf).map StreamEvent.line ++ [StreamEvent.closed] =
      taken.map .line ++ s.events := by
    rw [List.map_map]
    exact hevs
  obtain ⟨later, htexts, hrest⟩ := taken_of_lines hevs'
  rw [hrest, drain_lines] at hlate
  obtain ⟨before, after, rfl⟩ := List.append_of_mem hmem
  have hothers := (others_of_countP hone
    (show texts.map lineOf = (before ++ [line]) ++ (after ++ later) by rw [htexts]; simp) hline).2
  have hlaterPieces := not_carries_pieces honce fun l hl =>
    hothers l (List.mem_append_right _ (List.mem_of_mem_take (hlate ▸ hl)))
  obtain ⟨message, hdec, hid, hsplit⟩ := decoded_aggregate hcoll.named bytes
  have hpieces : splitlines ended.stdout = (before ++ line :: after).flatMap splitlines ++
        (aggregate listing bytes).asciiCompact :: ended.late.flatMap splitlines := by
    have hends := lines_of_call htexts available
    rw [Ended.stdout, hlines, htaken, List.nil_append, splitlines_flatten, List.flatMap_append,
      List.flatMap_append, List.flatMap_singleton, lineOf,
      splitlines_unbroken (asciiCompact_unbroken JsonText.printable_repr _), List.append_assoc,
      List.singleton_append]
    intro l hl
    rw [hlate] at hl
    rcases List.mem_append.1 hl with hl | hl
    · rcases List.mem_append.1 hl with hl | hl
      · exact hends l (List.mem_append_left _ hl)
      · exact ⟨_, List.mem_singleton.1 hl⟩
    · exact hends l (List.mem_append_right _ hl)
  have hres : (responseResult (responseId .toolsList) ended.stdout : Option (Fields (Number φ))) =
      resultOf message := by
    rw [responseResult, hpieces]
    exact responseResultIn_last hdec hid hlaterPieces none
  rw [writeMcpResult, hres, hsplit, hcoll.tools]

/-! ### What is recorded is what was received -/

/-- **The response that was received is recorded**: where both readings find the same of the
responses in the recorded lines, the result and the error of a call are those of the message that
was waited for, and a finished list is recorded with the definitions of all its pages. -/
theorem recorded_is_received {texts fragments : List Text} (hchunks : Chunks texts fragments)
    (hbytes : byteLength fragments.flatten ≤ mcpSessionMaxStdoutBytes) (returncode : Option Int)
    (available : Nat) (bridge : σ) :
    (∀ (handler : Option (Observe φ σ)) (bindings : Option (List (String × String)))
      (ended : Ended (Fields (Number φ))) (message : Fields (Number φ)),
      runMcpSession φ .toolsCall (receiveCall returncode handler bindings) available
        (startReader mcpSessionMaxStdoutBytes 0 [] fragments) bridge = some ended →
      ended.received = some message →
      texts.countP (carries φ (responseId .toolsCall)) = 1 →
      (∀ line ∈ ended.lines ++ ended.late, ReadsOnce φ (responseId .toolsCall) line) →
      (∀ result pagination, resultOf message = some result →
        result.get toolsListPaginationKey ≠ .dict pagination) →
      (writeMcpResult .toolsCall ended.stdout).protocolResult = resultOf message ∧
        ((protocolError φ .toolsCall ended.stdout).isSome = true ↔ carriesError message = true)) ∧
    ∀ (ended : Ended (Option (Listing φ))) (listing : Listing φ),
      runMcpSession φ .toolsList (receiveList returncode) available
        (startReader mcpSessionMaxStdoutBytes 0 [] fragments) bridge = some ended →
      ended.received = some (some listing) →
      texts.countP (carries φ (responseId .toolsList)) = 1 →
      (∀ line ∈ ended.late, ReadsOnce φ (responseId .toolsList) line) →
      (writeMcpResult .toolsList ended.stdout).protocolResult =
        some [("tools", Value.list (firstAppearances (listing.results.flatMap pageTools)))] := by
  rw [startReader_lines hchunks hbytes]
  constructor
  · intro handler bindings ended message h hrecv hone honce hpages
    obtain ⟨hres, herr⟩ := recorded_of_call h hrecv hone honce
    refine ⟨?_, by rw [herr]⟩
    have hsplit : splitPagination (resultOf message) = (resultOf message, none) := by
      rcases hsome : resultOf message with _ | result
      · rfl
      · simp only [splitPagination]
        split
        · rename_i pagination hpagination
          exact absurd hpagination (hpages result pagination hsome)
        · rfl
    rw [writeMcpResult, hres, hsplit]
  · intro ended listing h hrecv hone honce
    exact recorded_of_list h hrecv hone honce

end

/-! ### A raw line separator -/

/-- Floats of which only `0.0` is written. -/
@[reducible]
def sampleFloats : PyFloatText Unit where
  value _ := 0
  ofInt n := if n = 0 then some () else none
  repr _ := "0.0"
  parse text := if text = ['0', '.', '0'] then some () else none
  parse_repr _ := rfl
  splitNumeral_repr _ := rfl

theorem sampleFloats_printable : @PrintableFloats Unit sampleFloats.toPyFloat := by
  intro x
  show "0.0".toList.all isPrintable = true
  decide

@[reducible]
def sampleJsonText : JsonText Unit := @JsonText.ofReader Unit sampleFloats sampleFloats_printable

/-- The response to an initialization. -/
def initText : Text :=
    ['\x7b', '"', 'i', 'd', '"', ':', '"', 'c', 'l', 'i', 'o', '-', 'r', 'e', 'l', 'a', 'y', '-',
     'm', 'c', 'p', '-', 'i', 'n', 'i', 't', '"', '\x7d']

/-- The response to a call, with a string in its result. -/
def callText (string : Text) : Text :=
    ['\x7b', '"', 'i', 'd', '"', ':', '"', 'c', 'l', 'i', 'o', '-', 'r', 'e', 'l', 'a', 'y', '-',
     'm', 'c', 'p', '-', 'c', 'a', 'l', 'l', '"', ',', '"', 'r', 'e', 's', 'u', 'l', 't', '"',
     ':', '\x7b', '"', 'a', '"', ':', '"'] ++
    string ++ ['"', '\x7d', '\x7d']

/-- The response to a list, with one tool in it twice. -/
def listText : Text :=
    ['\x7b', '"', 'i', 'd', '"', ':', '"', 'c', 'l', 'i', 'o', '-', 'r', 'e', 'l', 'a', 'y', '-',
     'm', 'c', 'p', '-', 't', 'o', 'o', 'l', 's', '-', 'l', 'i', 's', 't', '"', ',', '"', 'r',
     'e', 's', 'u', 'l', 't', '"', ':', '\x7b', '"', 't', 'o', 'o', 'l', 's', '"', ':', '[',
     '\x7b', '"', 'n', 'a', 'm', 'e', '"', ':', '"', 'a', '"', '\x7d', ',', '\x7b', '"', 'n', 'a',
     'm', 'e', '"', ':', '"', 'a', '"', '\x7d', ']', '\x7d', '\x7d']

theorem readsOnce_of_printable {φ : Type} [JsonText φ] {messageId : String} {text : Text}
    (h : text.all isPrintable = true) : ReadsOnce φ messageId (lineOf text) := by
  have hunbroken : ∀ c ∈ text, isLineBoundary c = false := fun c hc =>
    not_boundary (List.all_eq_true.1 h c hc)
  refine ⟨fun _ => ?_, fun piece hpiece _ => ?_⟩
  · rw [lineOf, List.dropLast_concat]
    exact hunbroken
  · rw [lineOf, splitlines_unbroken hunbroken] at hpiece
    rw [List.mem_singleton.1 hpiece]

theorem chunks_lines {first second : Text} (hfirst : '\n' ∉ first) (hsecond : '\n' ∉ second) :
    Chunks [first, second] [lineOf first, lineOf second] where
  newline text h := by
    rcases List.mem_cons.1 h with rfl | h
    · exact hfirst
    · rw [List.mem_singleton.1 h]
      exact hsecond
  joined := rfl
  ends fragment h := by
    rcases List.mem_cons.1 h with rfl | h
    · rwa [lineOf, List.dropLast_concat]
    · rw [List.mem_singleton.1 h, lineOf, List.dropLast_concat]
      exact hsecond

/-- What a session receives that is answered with an empty string, and with the two tools. -/
def sampleCall : Ended (Fields (Number Unit)) :=
  ⟨some [("id", .str "clio-relay-mcp-call"), ("result", .dict [("a", .str "")])],
    [lineOf initText, lineOf (callText [])], []⟩

def sampleListing : Listing Unit :=
  ⟨[("a", .dict [("name", .str "a")])], [], 1,
    [[("tools", .list [.dict [("name", .str "a")], .dict [("name", .str "a")]])]]⟩

def sampleList : Ended (Option (Listing Unit)) :=
  ⟨some (some sampleListing), [lineOf initText, lineOf listText,
    lineOf (@Value.asciiCompact Unit sampleFloats.toPyFloat (aggregate sampleListing 82))], []⟩

set_option maxRecDepth 4000 in
/-- A sample tool call and a sample listing of two pages are recorded as they were received. -/
theorem recorded_is_received_sample :
    (@writeMcpResult Unit sampleJsonText .toolsCall sampleCall.stdout).protocolResult =
        some [("a", .str "")] ∧
      (@writeMcpResult Unit sampleJsonText .toolsList sampleList.stdout).protocolResult =
        some [("tools", .list [.dict [("name", .str "a")]])] := by
  have hprint : initText.all isPrintable = true ∧ (callText []).all isPrintable = true := by
    decide
  have hcall := (@recorded_is_received Unit sampleJsonText Unit [initText, callText []]
    [lineOf initText, lineOf (callText [])] (chunks_lines (by decide) (by decide)) (by decide)
    none 0 ()).1 none none sampleCall _ rfl rfl rfl
  have hlist := (@recorded_is_received Unit sampleJsonText Unit [initText, listText]
    [lineOf initText, lineOf listText] (chunks_lines (by decide) (by decide)) (by decide)
    none 0 ()).2 sampleList sampleListing rfl rfl rfl
  refine ⟨(hcall (fun line hline => ?_) fun result pagination hres => ?_).1,
    hlist fun line hline => ?_⟩
  · rcases List.mem_cons.1 hline with rfl | hline
    · exact @readsOnce_of_printable Unit sampleJsonText _ _ hprint.1
    · rw [List.mem_singleton.1 hline]
      exact @readsOnce_of_printable Unit sampleJsonText _ _ hprint.2
  · have hsome : some [("a", Value.str "")] = some result := hres
    cases hsome
    exact fun h => by cases h
  · cases hline

/-- A response whose string has a raw line separator is received, and recorded as missing. -/
theorem recorded_is_not_received :
    ¬ ∀ (texts fragments : List Text), Chunks texts fragments →
      byteLength fragments.flatten ≤ mcpSessionMaxStdoutBytes →
      ∀ (ended : Ended (Fields (Number Unit))) (message : Fields (Number Unit)),
      @runMcpSession Unit Unit sampleJsonText _ .toolsCall
        (@receiveCall Unit sampleJsonText Unit none none none) 0
        (startReader mcpSessionMaxStdoutBytes 0 [] fragments) () = some ended →
      ended.received = some message →
      texts.countP (@carries Unit sampleJsonText (responseId .toolsCall)) = 1 →
      (@writeMcpResult Unit sampleJsonText .toolsCall ended.stdout).protocolResult =
          resultOf message ∧
        ((@protocolError Unit sampleJsonText .toolsCall ended.stdout).isSome = true ↔
          carriesError message = true) := by
  intro hall
  have hrecorded := hall [initText, callText ['\u2028']]
    [lineOf initText, lineOf (callText ['\u2028'])] (chunks_lines (by decide) (by decide))
    (by decide)
    ⟨some [("id", .str "clio-relay-mcp-call"), ("result", .dict [("a", .str "\u2028")])],
      [lineOf initText, lineOf (callText ['\u2028'])], []⟩ _ rfl rfl rfl
  have hnone : none = some [("a", Value.str "\u2028")] := hrecorded.1
  cases hnone

end ClioQueue.McpRunner
