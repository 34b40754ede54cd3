/-
# The two readings of a response

While a session runs, the messages are the lines of the pipe; once it has ended, they are the pieces
that `str.splitlines` makes of the joined text.  Where the response's line is one piece and no piece
of another line is a message with its id, the response that was waited for is the one that is
recorded, and the recorded list of tools is that of all pages (`recorded_is_received`).
-/

import ClioQueue.McpRunner.Recording
import Mathlib.Data.List.Infix

namespace ClioQueue.McpRunner

open Wire

/-! ### The reader -/

section Reader

/-- The line of a text. -/
def lineOf (text : Text) : Text := text ++ ['\n']

/-- The first line of a text is determined. -/
theorem append_newline_inj {x : Text} : ∀ {y rest left : Text}, '\n' ∉ x → '\n' ∉ y →
    x ++ '\n' :: rest = y ++ '\n' :: left → x = y ∧ rest = left := by
  induction x with
  | nil =>
    intro y rest left _ hy h
    rcases y with _ | ⟨d, y⟩
    · exact ⟨rfl, List.tail_eq_of_cons_eq h⟩
    · exact absurd (List.head_eq_of_cons_eq h ▸ .head _) hy
  | cons c x ih =>
    intro y rest left hx hy h
    rcases y with _ | ⟨d, y⟩
    · exact absurd (List.head_eq_of_cons_eq h ▸ .head _) hx
    · obtain ⟨hhead, htail⟩ := List.cons.inj h
      obtain ⟨hxy, hrest⟩ := ih (List.not_mem_of_not_mem_cons hx)
        (List.not_mem_of_not_mem_cons hy) htail
      exact ⟨by rw [hhead, hxy], hrest⟩

/-- What is pending is the start of the next line. -/
theorem startReader_eq {maxBytes : Nat} {fragments : List Text} :
    ∀ {capturedBytes : Nat} {pending : Text} {texts : List Text},
      '\n' ∉ pending → (∀ text ∈ texts, '\n' ∉ text) →
      (∀ fragment ∈ fragments, '\n' ∉ fragment.dropLast) →
      pending ++ fragments.flatten = texts.flatMap lineOf →
      capturedBytes + byteLength fragments.flatten ≤ maxBytes →
      startReader maxBytes capturedBytes pending fragments =
        texts.map (fun text => .line (lineOf text)) ++ [.closed] := by
  induction fragments with
  | nil =>
    intro capturedBytes pending texts hpend htexts _ hjoined _
    rcases texts with _ | ⟨text, texts⟩
    · have hnil : pending = [] := by simpa using hjoined
      rw [hnil]
      rfl
    · refine absurd ?_ hpend
      have heq : pending = lineOf text ++ texts.flatMap lineOf := by simpa using hjoined
      rw [heq]
      simp [lineOf]
  | cons fragment fragments ih =>
    intro capturedBytes pending texts hpend htexts hends hjoined hbytes
    have hlast := hends fragment List.mem_cons_self
    have hrest := fun other hmem => hends other (List.mem_cons_of_mem _ hmem)
    rw [List.flatten_cons, byteLength_append, ← Nat.add_assoc] at hbytes
    rw [startReader, if_neg (by omega)]
    split
    · rename_i hnewline
      have hfragment : fragment = fragment.dropLast ++ ['\n'] :=
        (List.dropLast_append_getLast? '\n' hnewline).symm
      rcases texts with _ | ⟨text, texts⟩
      · rw [hfragment] at hjoined
        simp at hjoined
      · have hsplit : (pending ++ fragment.dropLast) ++ '\n' :: fragments.flatten =
            text ++ '\n' :: texts.flatMap lineOf := by
          have heq := hjoined
          rw [List.flatten_cons, hfragment, List.flatMap_cons, lineOf] at heq
          simpa using heq
        have hfirst : '\n' ∉ pending ++ fragment.dropLast := fun hmem =>
          (List.mem_append.1 hmem).elim hpend hlast
        obtain ⟨hline, hleft⟩ := append_newline_inj hfirst (htexts text List.mem_cons_self) hsplit
        have hpart : pending ++ fragment = lineOf text := by
          rw [hfragment, ← List.append_assoc, hline, lineOf]
        rw [hpart, ih List.not_mem_nil (fun other hmem => htexts other
          (List.mem_cons_of_mem _ hmem)) hrest hleft hbytes]
        rfl
    · rename_i hnewline
      rw [List.flatten_cons, ← List.append_assoc] at hjoined
      refine ih (fun hmem => ?_) htexts hrest hjoined hbytes
      -- a fragment has its newline at its end
      rcases List.mem_append.1 hmem with hmem | hmem
      · exact hpend hmem
      · have hne : fragment ≠ [] := List.ne_nil_of_mem hmem
        rw [← List.dropLast_append_getLast hne] at hmem
        rcases List.mem_append.1 hmem with hmem | hmem
        · exact hlast hmem
        · refine hnewline ?_
          rw [List.getLast?_eq_some_getLast hne, List.mem_singleton.1 hmem]

/-- **Every chunking gives the lines**: the reader puts each text with its newline. -/
theorem startReader_lines {maxBytes : Nat} {texts fragments : List Text}
    (h : Chunks texts fragments) (hbytes : byteLength fragments.flatten ≤ maxBytes) :
    startReader maxBytes 0 [] fragments =
      texts.map (fun text => .line (lineOf text)) ++ [.closed] :=
  startReader_eq List.not_mem_nil h.newline h.ends h.joined (by rwa [Nat.zero_add])

end Reader

/-! ### What a session takes -/

section Taking

variable {φ : Type} [JsonText φ] {σ α β : Type} {s s' s'' : Stdio σ}
  {message : Fields (Number φ)} {taken : List Text}
  {bindings : Option (List (String × String))} {handler : Option (Observe φ σ)}
  {returncode : Option Int} {request : Request} {x : Session σ α} {a : α}

theorem bind_eq_ok {f : α → Session σ β} {b : β} (h : (x >>= f) s = .ok b s'') :
    ∃ a s', x s = .ok a s' ∧ f a s' = .ok b s'' := by
  have hbind : (x >>= f) s = EStateM.bind x f s := rfl
  rw [hbind, EStateM.bind] at h
  cases hx : x s with
  | ok a s' => exact ⟨a, s', rfl, by rwa [hx] at h⟩
  | error =>
    rw [hx] at h
    cases h

/-- The line is a message with the id. -/
def carries (φ : Type) [JsonText φ] (responseId : String) (line : Text) : Bool :=
  (decodedJsonObject line : Option (Fields (Number φ))).any fun message =>
    (message.get "id").isStr responseId

/-- A session takes lines off the queue. -/
structure Takes (s : Stdio σ) (taken : List Text) (s' : Stdio σ) : Prop where
  events : s.events = taken.map .line ++ s'.events
  lines : s'.lines = s.lines ++ taken

theorem Takes.refl (s : Stdio σ) : Takes s [] s := ⟨rfl, (List.append_nil _).symm⟩

theorem Takes.trans {after : List Text} (h : Takes s taken s') (h' : Takes s' after s'') :
    Takes s (taken ++ after) s'' where
  events := by rw [h.events, h'.events, List.map_append, List.append_assoc]
  lines := by rw [h'.lines, h.lines, List.append_assoc]

/-- A wait takes the lines up to the first one that is a message with the id. -/
theorem waitForEvents_ok {events : List StreamEvent} :
    ∀ {lines : List Text} {bytes : Nat} {bridge : σ} {message : Fields (Number φ)},
      waitForEvents returncode handler request events lines bytes bridge = .ok message s' →
      ∃ before line, events = (before ++ [line]).map .line ++ s'.events ∧
        s'.lines = lines ++ (before ++ [line]) ∧ decodedJsonObject line = some message ∧
        (message.get "id").isStr request.responseId = true := by
  induction events with
  | nil =>
    intro lines bytes bridge message h
    cases h
  | cons event events ih =>
    intro lines bytes bridge message h
    cases event with
    | limit => cases h
    | closed => cases h
    | line line =>
      simp only [waitForEvents] at h
      have hlater : ∀ {bytes : Nat} {bridge : σ},
          waitForEvents returncode handler request events (lines ++ [line]) bytes bridge =
            .ok message s' → ∃ before last,
            StreamEvent.line line :: events = (before ++ [last]).map .line ++ s'.events ∧
            s'.lines = lines ++ (before ++ [last]) ∧ decodedJsonObject last = some message ∧
            (message.get "id").isStr request.responseId = true := by
        intro bytes bridge hwait
        obtain ⟨before, last, hevs, hlines, hdec, hid⟩ := ih hwait
        refine ⟨line :: before, last, ?_, ?_, hdec, hid⟩
        · rw [hevs]
          rfl
        · rw [hlines]
          simp
      split at h
      · cases h
      · split at h
        · exact hlater h
        · rename_i _ hdec
          split at h
          · cases h
          · split at h
            · rename_i hid
              cases h
              exact ⟨[], line, rfl, rfl, hdec, hid⟩
            · exact hlater h

theorem waitForResponse_ok (h : waitForResponse returncode handler request s = .ok message s') :
    ∃ before line, Takes s (before ++ [line]) s' ∧ decodedJsonObject line = some message ∧
      (message.get "id").isStr request.responseId = true := by
  obtain ⟨before, line, hevs, hlines, hdec, hid⟩ := waitForEvents_ok h
  exact ⟨before, line, ⟨hevs, hlines⟩, hdec, hid⟩

theorem not_fails {message : String} {P : Prop} (h : (fail message : Session σ α) s = .ok a s') :
    P := by
  cases h

theorem of_guard {c : Prop} [Decidable c] {message : String}
    (h : (if c then fail message else x) s = .ok a s') : ¬ c ∧ x s = .ok a s' := by
  by_cases hc : c
  · rw [if_pos hc] at h
    exact not_fails h
  · rw [if_neg hc] at h
    exact ⟨hc, h⟩

theorem reconcileSteps_takes {returncode : Option Int} {stepIds : List String} :
    ∀ {index : Nat} {s : Stdio σ}, reconcileSteps (φ := φ) returncode index stepIds s = .ok () s' →
      ∃ taken, Takes s taken s' := by
  induction stepIds with
  | nil =>
    intro index s h
    cases h
    exact ⟨[], .refl _⟩
  | cons stepId stepIds ih =>
    intro index s h
    rw [reconcileSteps] at h
    obtain ⟨response, _, hwait, h⟩ := bind_eq_ok h
    obtain ⟨_, _, htakes, -, -⟩ := waitForResponse_ok hwait
    obtain ⟨-, h⟩ := of_guard h
    rcases hres : resultOf response with _ | _
    · simp only [hres] at h
      exact not_fails h
    · simp only [hres] at h
      obtain ⟨taken, hlater⟩ := ih (of_guard h).2
      exact ⟨_, htakes.trans hlater⟩

theorem Takes.reset {s₁ : Stdio σ} (h : (resetResponseBytes : Session σ Unit) s = .ok () s₁)
    (htakes : Takes s₁ taken s') : Takes s taken s' := by
  cases h
  exact ⟨htakes.events, htakes.lines⟩

theorem reconcileInputs_takes (h : reconcileInputs φ returncode bindings s = .ok () s') :
    ∃ taken, Takes s taken s' := by
  rcases bindings with _ | bindings
  · cases h
    exact ⟨[], .refl _⟩
  · rw [reconcileInputs, runJarvisInputReconciliation] at h
    obtain ⟨⟨⟩, _, hreset, h⟩ := bind_eq_ok (of_guard h).2
    obtain ⟨taken, htakes⟩ := reconcileSteps_takes h
    exact ⟨taken, htakes.reset hreset⟩

/-- The last line that the session of a call takes is the response. -/
theorem receiveCall_ok (h : receiveCall returncode handler bindings s = .ok message s') :
    ∃ before line, Takes s (before ++ [line]) s' ∧ decodedJsonObject line = some message ∧
      (message.get "id").isStr (responseId .toolsCall) = true := by
  rw [receiveCall] at h
  obtain ⟨⟨⟩, _, hreset, h⟩ := bind_eq_ok h
  obtain ⟨_, _, hwait, h⟩ := bind_eq_ok h
  obtain ⟨⟨⟩, _, hreconcile, h⟩ := bind_eq_ok h
  obtain ⟨⟨⟩, _, hagain, h⟩ := bind_eq_ok h
  obtain ⟨first, line₁, hfirst, -, -⟩ := waitForResponse_ok hwait
  obtain ⟨reconciled, hreconciled⟩ := reconcileInputs_takes hreconcile
  obtain ⟨before, line, hlast, hdec, hid⟩ := waitForResponse_ok h
  refine ⟨(first ++ [line₁]) ++ (reconciled ++ before), line, ?_, hdec, hid⟩
  have htakes := ((hfirst.reset hreset).trans hreconciled).trans (hlast.reset hagain)
  simpa only [List.append_assoc] using htakes

end Taking

/-! ### What is drained -/

section Draining

variable {φ : Type} [JsonText φ] {σ α : Type}

/-- What a session took is the start of the lines, and the other lines are still in the queue. -/
theorem taken_of_lines {taken : List Text} : ∀ {lines : List Text} {events : List StreamEvent},
    lines.map StreamEvent.line ++ [StreamEvent.closed] = taken.map StreamEvent.line ++ events →
    ∃ later, lines = taken ++ later ∧
      events = later.map StreamEvent.line ++ [StreamEvent.closed] := by
  induction taken with
  | nil =>
    intro lines events h
    exact ⟨lines, rfl, h.symm⟩
  | cons line taken ih =>
    intro lines events h
    rcases lines with _ | ⟨_, lines⟩
    · cases h
    · obtain ⟨hfirst, hrest⟩ := List.cons.inj h
      cases hfirst
      obtain ⟨later, rfl, hevs⟩ := ih hrest
      exact ⟨later, rfl, hevs⟩

theorem drain_lines (later : List Text) (available : Nat) :
    ((later.map StreamEvent.line ++ [StreamEvent.closed]).take available).flatMap drainEvent =
      later.take available := by
  induction later generalizing available with
  | nil =>
    rcases available with _ | available
    · rfl
    · simp [drainEvent]
  | cons line later ih =>
    rcases available with _ | available
    · rfl
    · rw [List.map_cons, List.cons_append, List.take_succ_cons, List.flatMap_cons, ih]
      rfl

/-- A run that received a value ended its session with it, and its late lines are those of the
events that were still to come. -/
theorem runMcpSession_received {operation : Operation} {session : Session σ α} {available : Nat}
    {events : List StreamEvent} {bridge : σ} {ended : Ended α} {a : α}
    (h : runMcpSession φ operation session available events bridge = some ended)
    (hrecv : ended.received = some a) : ∃ s, session ⟨events, [], 0, bridge⟩ = .ok a s ∧
      ended.lines = s.lines ∧ ended.late = (s.events.take available).flatMap drainEvent := by
  rw [runMcpSession] at h
  cases hsess : session ⟨events, [], 0, bridge⟩ with
  | ok b s =>
    rw [hsess] at h
    cases h
    cases hrecv
    exact ⟨s, rfl, rfl, rfl⟩
  | error stop =>
    rw [hsess] at h
    rcases stop with message | _
    · cases h
      cases hrecv
    · cases h

end Draining

/-! ### The pieces of the recorded text -/

section Pieces

variable {φ : Type} [JsonText φ] {messageId : String}
  {message : Fields (Number φ)} {after before pieces : List Text} {text : Text}

theorem decoded_lineOf (text : Text) :
    (decodedJsonObject (lineOf text) : Option (Fields (Number φ))) = decodedJsonObject text := by
  rw [decodedJsonObject, decodedJsonObject, lineOf, JsonText.loads_newline]

theorem carries_lineOf (text : Text) :
    carries φ messageId (lineOf text) = carries φ messageId text := by
  rw [carries, carries, decoded_lineOf]

theorem lineMessage_eq (line : Text) :
    (lineMessage line : Option (Fields (Number φ))) = decodedJsonObject line := by
  rw [lineMessage]
  split
  · rename_i hblank
    rw [decodedJsonObject, JsonText.loads_blank line hblank]
  · rfl

/-- Both readings find the same of the response in a line: the response's line is one piece, and no
piece of another line is a message with its id. -/
structure ReadsOnce (φ : Type) [JsonText φ] (messageId : String) (line : Text) : Prop where
  whole : carries φ messageId line = true → ∀ c ∈ line.dropLast, isLineBoundary c = false
  stray : ∀ piece ∈ splitlines line, carries φ messageId piece = true → lineOf piece = line

theorem ReadsOnce.not_carries {line : Text} (h : ReadsOnce φ messageId line)
    (hline : carries φ messageId line = false) :
    ∀ piece ∈ splitlines line, carries φ messageId piece = false := by
  intro piece hmem
  refine Bool.eq_false_iff.2 fun hpiece => ?_
  have hwhole := h.stray piece hmem hpiece
  rw [← hwhole, carries_lineOf, hpiece] at hline
  cases hline

theorem not_carries_pieces {lines : List Text} (h : ∀ line ∈ lines, ReadsOnce φ messageId line)
    (hlines : ∀ line ∈ lines, carries φ messageId line = false) :
    ∀ piece ∈ lines.flatMap splitlines, carries φ messageId piece = false := by
  intro piece hmem
  obtain ⟨line, hline, hpiece⟩ := List.mem_flatMap.1 hmem
  exact (h line hline).not_carries (hlines line hline) piece hpiece

/-! ### The two loops -/

theorem responseResultIn_append (pieces rest : List Text) :
    ∀ matched : Option (Fields (Number φ)), responseResultIn messageId matched (pieces ++ rest) =
      responseResultIn messageId (responseResultIn messageId matched pieces) rest := by
  induction pieces with
  | nil => exact fun _ => rfl
  | cons piece pieces ih =>
    intro matched
    rw [List.cons_append, responseResultIn, responseResultIn]
    rcases (lineMessage piece : Option (Fields (Number φ))) with _ | message
    · exact ih _
    · by_cases hid : (message.get "id").isStr messageId = true
      · simp only [if_pos hid]
        exact ih _
      · simp only [if_neg hid]
        exact ih _

theorem responseResultIn_skip (h : ∀ piece ∈ pieces, carries φ messageId piece = false) :
    ∀ matched : Option (Fields (Number φ)), responseResultIn messageId matched pieces = matched := by
  induction pieces with
  | nil => exact fun _ => rfl
  | cons piece pieces ih =>
    intro matched
    have hpiece := h piece List.mem_cons_self
    rw [carries] at hpiece
    have hlater := ih fun other hmem => h other (List.mem_cons_of_mem _ hmem)
    rw [responseResultIn, lineMessage_eq]
    rcases hdec : (decodedJsonObject piece : Option (Fields (Number φ))) with _ | message
    · exact hlater matched
    · rw [hdec] at hpiece
      have hid : (message.get "id").isStr messageId = false := hpiece
      simp only [hid, Bool.false_eq_true, if_false]
      exact hlater matched

/-- The last message with the id decides. -/
theorem responseResultIn_last (hdec : decodedJsonObject text = some message)
    (hid : (message.get "id").isStr messageId = true)
    (hafter : ∀ piece ∈ after, carries φ messageId piece = false)
    (matched : Option (Fields (Number φ))) :
    responseResultIn messageId matched (before ++ text :: after) = resultOf message := by
  rw [responseResultIn_append, responseResultIn, lineMessage_eq, hdec]
  simp only [if_pos hid]
  exact responseResultIn_skip hafter _

omit [JsonText φ] in
theorem matchingId_toolsCall (message : Fields (Number φ)) :
    matchingId .toolsCall message = (message.get "id").isStr (responseId .toolsCall) := by
  rw [matchingId]
  cases message.get "id" with
  | str => simp [Value.isStr]
  | null | bool _ | num _ | list _ | dict _ => rfl

/-- Lines that do not carry the response id are passed over, whatever was seen before them. -/
theorem protocolErrorIn_skip (h : ∀ piece ∈ pieces, carries φ (responseId .toolsCall) piece = false)
    (rest : List Text) :
    ∀ seen, protocolErrorIn φ .toolsCall seen (pieces ++ rest) =
      protocolErrorIn φ .toolsCall seen rest := by
  induction pieces with
  | nil => exact fun _ => rfl
  | cons piece pieces ih =>
    intro seen
    have hpiece := h piece List.mem_cons_self
    rw [carries] at hpiece
    have hlater := ih fun other hmem => h other (List.mem_cons_of_mem _ hmem)
    rw [List.cons_append, protocolErrorIn, lineMessage_eq]
    rcases hdec : (decodedJsonObject piece : Option (Fields (Number φ))) with _ | message
    · exact hlater seen
    · rw [hdec] at hpiece
      have hid : matchingId .toolsCall message = false := by
        rw [matchingId_toolsCall]
        exact hpiece
      simp only [hid, Bool.not_false, if_true]
      exact hlater seen

/-- The message carries an error or `isError`. -/
def carriesError (message : Fields (Number φ)) : Bool :=
  !(message.get "error").isNull || (resultOf message).any isError

/-- If one line alone carries the response id, the protocol error that is recorded is the one of
that line. -/
theorem protocolErrorIn_response (hdec : decodedJsonObject text = some message)
    (hid : (message.get "id").isStr (responseId .toolsCall) = true)
    (hbefore : ∀ piece ∈ before, carries φ (responseId .toolsCall) piece = false)
    (hafter : ∀ piece ∈ after, carries φ (responseId .toolsCall) piece = false) :
    (protocolErrorIn φ .toolsCall false (before ++ text :: after)).isSome = carriesError message := by
  rw [protocolErrorIn_skip hbefore, protocolErrorIn, lineMessage_eq, hdec]
  simp only [matchingId_toolsCall, hid, Bool.not_true, Bool.false_eq_true, if_false, carriesError]
  rcases herr : (message.get "error").isNull with _ | _
  · rfl
  · rcases hres : (resultOf message).any isError with _ | _
    · have hskip := protocolErrorIn_skip hafter [] true
      rw [List.append_nil] at hskip
      simp only [decide_true, Bool.not_true, Bool.false_eq_true, if_false, Bool.and_false, hskip]
      rfl
    · rfl

end Pieces

/-! ### A call -/

section Call

variable {φ : Type} [JsonText φ] {σ : Type}

/-- The recorded text's lines are some of the server's, in order. -/
theorem lines_of_call {texts : List Text} {taken later : List Text}
    (h : texts.map lineOf = taken ++ later) (available : Nat) :
    ∀ line ∈ taken ++ later.take available, ∃ text, line = text ++ ['\n'] := by
  intro line hmem
  have hline : line ∈ texts.map lineOf := by
    rw [h]
    rcases List.mem_append.1 hmem with hmem | hmem
    · exact List.mem_append_left _ hmem
    · exact List.mem_append_right _ (List.mem_of_mem_take hmem)
  obtain ⟨text, -, rfl⟩ := List.mem_map.1 hline
  exact ⟨text, rfl⟩

theorem countP_map_lineOf (messageId : String) (texts : List Text) :
    (texts.map lineOf).countP (carries φ messageId) = texts.countP (carries φ messageId) := by
  rw [List.countP_map]
  exact List.countP_congr fun text _ => by rw [Function.comp_apply, carries_lineOf]

/-- Around the one message with the id there is no other. -/
theorem others_of_countP {messageId : String} {texts before later : List Text} {line : Text}
    (hone : texts.countP (carries φ messageId) = 1)
    (hlines : texts.map lineOf = (before ++ [line]) ++ later)
    (hline : carries φ messageId line = true) :
    (∀ other ∈ before, carries φ messageId other = false) ∧
      ∀ other ∈ later, carries φ messageId other = false := by
  rw [← countP_map_lineOf, hlines, List.countP_append, List.countP_append,
    List.countP_singleton, if_pos hline] at hone
  have hzero : ∀ {lines : List Text}, lines.countP (carries φ messageId) = 0 →
      ∀ other ∈ lines, carries φ messageId other = false := fun h other hmem =>
    Bool.eq_false_iff.2 (List.countP_eq_zero.1 h other hmem)
  exact ⟨hzero (by omega), hzero (by omega)⟩

/-- What the runner records of a call is the response that it received. -/
theorem recorded_of_call {returncode : Option Int} {handler : Option (Observe φ σ)}
    {bindings : Option (List (String × String))} {available : Nat} {bridge : σ}
    {texts : List Text} {ended : Ended (Fields (Number φ))} {message : Fields (Number φ)}
    (h : runMcpSession φ .toolsCall (receiveCall returncode handler bindings) available
      (texts.map (fun text => .line (lineOf text)) ++ [.closed]) bridge = some ended)
    (hrecv : ended.received = some message)
    (hone : texts.countP (carries φ (responseId .toolsCall)) = 1)
    (honce : ∀ line ∈ ended.lines ++ ended.late, ReadsOnce φ (responseId .toolsCall) line) :
    responseResult (responseId .toolsCall) ended.stdout = resultOf message ∧
      (protocolError φ .toolsCall ended.stdout).isSome = carriesError message := by
  obtain ⟨s, hsess, hlines, hlate⟩ := runMcpSession_received h hrecv
  obtain ⟨before, line, htakes, hdec, hid⟩ := receiveCall_ok hsess
  have hevs := htakes.events
  rw [show (texts.map fun text => StreamEvent.line (lineOf text)) =
    (texts.map lineOf).map StreamEvent.line from (List.map_map ..).symm] at hevs
  obtain ⟨later, htexts, hrest⟩ := taken_of_lines hevs
  rw [hrest, drain_lines] at hlate
  have htaken : ended.lines = before ++ [line] := by rw [hlines, htakes.lines, List.nil_append]
  have hline : carries φ (responseId .toolsCall) line = true := by
    rw [carries, hdec]
    exact hid
  obtain ⟨hbefore, hlater⟩ := others_of_countP hone htexts hline
  obtain ⟨text, rfl⟩ := lines_of_call htexts available line (by simp)
  rw [htaken, hlate] at honce
  have hwhole := (honce (text ++ ['\n']) (by simp)).whole hline
  rw [List.dropLast_concat] at hwhole
  have hpieces : splitlines ended.stdout = before.flatMap splitlines ++
      text :: (later.take available).flatMap splitlines := by
    rw [Ended.stdout, htaken, hlate, splitlines_flatten (lines_of_call htexts available),
      List.flatMap_append, List.flatMap_append, List.flatMap_singleton,
      splitlines_unbroken hwhole, List.append_assoc, List.singleton_append]
  have hbeforePieces := not_carries_pieces
    (fun l hmem => honce l (List.mem_append_left _ (List.mem_append_left _ hmem))) hbefore
  have hlaterPieces := not_carries_pieces (fun l hmem => honce l (List.mem_append_right _ hmem))
    fun l hmem => hlater l (List.mem_of_mem_take hmem)
  have hread : decodedJsonObject text = some message := by
    rw [← decoded_lineOf]
    exact hdec
  constructor
  · rw [responseResult, hpieces]
    exact responseResultIn_last hread hid hlaterPieces none
  · rw [protocolError, hpieces]
    exact protocolErrorIn_response hread hid hbeforePieces hlaterPieces

end Call

end ClioQueue.McpRunner
