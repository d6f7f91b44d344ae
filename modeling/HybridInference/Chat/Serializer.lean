import HybridInference.Library.Dict
import HybridInference.Library.Json

/-!
# Serializing chat completions

`serving.openai_chat_serializer`: what the public chat surface forwards of an upstream's
chunks and responses, with their reasoning or without it. A chunk without choices and one
whose choices are null are the same to it. The payload of a chunk is what a client reads of
it besides reasoning.
-/

namespace HybridInference.Chat

open Library

inductive SerializerMode where
  | strictOpenai
  | reasoningPassthrough
  deriving DecidableEq

abbrev Fields := Dict String Json

def Fields.get (fields : Fields) (name : String) : Json := (fields.find name).getD .null

def reasoningFields : List String := ["reasoning_content", "reasoning", "thinking"]

structure Choice where
  index : ℕ
  /-- The `delta` of a chunk's choice, the `message` of a response's. -/
  fields : Fields
  finishReason : Json

structure Chunk where
  choices : List Choice
  usage : Json
  routing : Json

structure SanitizeResult where
  chunkJson : Option Chunk
  shouldForward : Bool
  usageData : Json
  routingInfo : Json

structure SanitizeResponseResult where
  responseJson : Chunk
  routingInfo : Json

def isNull : Json → Bool
  | .null => true
  | _ => false

/-- `delta.pop(field, None)` of each reasoning field. -/
def Fields.popReasoning (fields : Fields) : Fields := fields.eraseAll reasoningFields

def Fields.hasReasoning (fields : Fields) : Bool :=
  (fields.get "reasoning_content").truthy || (fields.get "reasoning").truthy ||
    (fields.get "thinking").truthy

def Fields.hasContent (fields : Fields) : Bool := (fields.get "content").truthy

def Fields.hasToolCalls (fields : Fields) : Bool := (fields.get "tool_calls").truthy

/-- `chunk_json.pop("_routing", None)`. -/
def Chunk.popRouting (chunk : Chunk) : Chunk := { chunk with routing := .null }

def sanitizeChunk (chunk : Chunk) (mode : SerializerMode) : SanitizeResult :=
  let forward (chunkJson : Option Chunk) : SanitizeResult :=
    { chunkJson := chunkJson
      shouldForward := chunkJson.isSome
      usageData := chunk.usage
      routingInfo := chunk.routing }
  if !isNull chunk.routing && chunk.choices.isEmpty && isNull chunk.usage then
    forward none
  else
    match mode, chunk.choices with
    | .reasoningPassthrough, _ => forward (some chunk.popRouting)
    | .strictOpenai, [] => forward (some chunk.popRouting)
    | .strictOpenai, first :: rest =>
      if first.fields.hasReasoning && !first.fields.hasContent && !first.fields.hasToolCalls then
        forward none
      else if first.fields.hasReasoning &&
          (first.fields.hasContent || first.fields.hasToolCalls) then
        forward (some { chunk.popRouting with
          choices := { first with fields := first.fields.popReasoning } :: rest })
      else forward (some chunk.popRouting)

def sanitizeResponse (response : Chunk) (mode : SerializerMode) : SanitizeResponseResult :=
  let sanitized := response.popRouting
  match mode, response.choices with
  | .reasoningPassthrough, _ => ⟨sanitized, response.routing⟩
  | .strictOpenai, [] => ⟨sanitized, response.routing⟩
  | .strictOpenai, choice :: rest =>
    if reasoningFields.any fun key => (choice.fields.find key).isSome then
      ⟨{ sanitized with
          choices := { choice with fields := choice.fields.popReasoning } :: rest },
        response.routing⟩
    else ⟨sanitized, response.routing⟩

def forwarded (mode : SerializerMode) (chunks : List Chunk) : List Chunk :=
  chunks.filterMap fun chunk => (sanitizeChunk chunk mode).chunkJson

inductive Item where
  | content (index : ℕ) (value : Json)
  | toolCalls (index : ℕ) (value : Json)
  | finishReason (index : ℕ) (value : Json)
  | usage (value : Json)

def Choice.payload (choice : Choice) : List Item :=
  (if choice.fields.hasContent then [.content choice.index (choice.fields.get "content")]
    else []) ++
  (if choice.fields.hasToolCalls then [.toolCalls choice.index (choice.fields.get "tool_calls")]
    else []) ++
  (if isNull choice.finishReason then [] else [.finishReason choice.index choice.finishReason])

def Chunk.payload (chunk : Chunk) : List Item :=
  chunk.choices.flatMap Choice.payload ++ (if isNull chunk.usage then [] else [.usage chunk.usage])

def Choice.carriesReasoning (choice : Choice) : Bool :=
  reasoningFields.any fun key => (choice.fields.find key).isSome

def Chunk.carriesReasoning (chunk : Chunk) : Bool := chunk.choices.any Choice.carriesReasoning

/-- The two outputs differ in reasoning only, and the strict one has none. -/
def RemovesOnlyReasoning (strict passthrough : List Chunk) : Prop :=
  (∀ chunk ∈ strict, chunk.carriesReasoning = false) ∧
    strict.flatMap Chunk.payload = passthrough.flatMap Chunk.payload

def Chunk.reasonsInFirst (chunk : Chunk) : Prop :=
  match chunk.choices with
  | [] => True
  | first :: rest =>
    if first.fields.hasReasoning && !first.fields.hasContent && !first.fields.hasToolCalls then
      chunk.payload = []
    else
      (first.carriesReasoning = true → first.fields.hasReasoning = true) ∧
        ∀ choice ∈ rest, choice.carriesReasoning = false

def Chunk.onlyFirstReasons (response : Chunk) : Prop :=
  ∀ choice ∈ response.choices.tail, choice.carriesReasoning = false

section Fields

variable (fields : Fields)

theorem get_popReasoning {name : String} (other : name ∉ reasoningFields) :
    fields.popReasoning.get name = fields.get name := by
  unfold Fields.get Fields.popReasoning
  rw [Dict.find_eraseAll, if_neg other]

theorem payload_popReasoning (choice : Choice) :
    ({ choice with fields := choice.fields.popReasoning } : Choice).payload = choice.payload := by
  unfold Choice.payload Fields.hasContent Fields.hasToolCalls
  rw [get_popReasoning choice.fields (by decide : "content" ∉ reasoningFields),
    get_popReasoning choice.fields (by decide : "tool_calls" ∉ reasoningFields)]

theorem carriesReasoning_popReasoning (choice : Choice) :
    ({ choice with fields := choice.fields.popReasoning } : Choice).carriesReasoning = false := by
  unfold Choice.carriesReasoning
  rw [List.any_eq_false]
  intro key isReasoning
  unfold Fields.popReasoning
  rw [Dict.find_eraseAll, if_pos isReasoning]
  simp

end Fields

def strictPart (chunk : Chunk) : List Item :=
  ((sanitizeChunk chunk .strictOpenai).chunkJson.map Chunk.payload).getD []

theorem flatMap_forwarded (mode : SerializerMode) (chunks : List Chunk) :
    (forwarded mode chunks).flatMap Chunk.payload = chunks.flatMap fun chunk =>
        ((sanitizeChunk chunk mode).chunkJson.map Chunk.payload).getD [] := by
  unfold forwarded
  induction chunks with
  | nil => rfl
  | cons chunk rest ih =>
    rw [List.flatMap_cons, List.filterMap_cons, ← ih]
    cases (sanitizeChunk chunk mode).chunkJson with
    | none => rfl
    | some sent => rfl

theorem payload_of_empty {chunk : Chunk} (empty : chunk.choices.isEmpty = true)
    (noUsage : isNull chunk.usage = true) : chunk.payload = [] := by
  unfold Chunk.payload
  rw [List.isEmpty_iff.mp empty, if_pos noUsage]
  rfl

theorem passthrough_payload (chunk : Chunk) :
    ((sanitizeChunk chunk .reasoningPassthrough).chunkJson.map Chunk.payload).getD [] =
      chunk.payload := by
  unfold sanitizeChunk
  split_ifs with suppressed
  · simp only [Bool.and_eq_true] at suppressed
    exact (payload_of_empty suppressed.1.2 suppressed.2).symm
  · rfl

/-- Strict mode forwards all that a chunk carries besides reasoning, or nothing of it. -/
theorem strictPart_cases (chunk : Chunk) :
    strictPart chunk = chunk.payload ∨ strictPart chunk = [] := by
  unfold strictPart sanitizeChunk
  split_ifs with suppressed
  · exact Or.inr rfl
  · split
    · exact Or.inl rfl
    · exact Or.inl rfl
    · rename_i first rest split
      split_ifs
      · exact Or.inr rfl
      · left
        simp only [Option.map_some, Option.getD_some]
        unfold Chunk.payload
        simp only [split, List.flatMap_cons, payload_popReasoning]
        rfl
      · exact Or.inl rfl

theorem flatMap_eq_iff_of_parts {α β : Type*} {part whole : α → List β} {list : List α}
    (parts : ∀ a ∈ list, part a = whole a ∨ part a = []) :
    list.flatMap part = list.flatMap whole ↔ ∀ a ∈ list, part a = whole a := by
  constructor
  · intro same
    have shorter : ∀ l : List α, (∀ a ∈ l, part a = whole a ∨ part a = []) →
        (l.flatMap part).length ≤ (l.flatMap whole).length := by
      intro l parts
      induction l with
      | nil => simp
      | cons a rest ih =>
        have tail := ih fun b inside => parts b (List.mem_cons_of_mem _ inside)
        simp only [List.flatMap_cons, List.length_append]
        rcases parts a (by simp) with equal | empty
        · rw [equal]
          omega
        · rw [empty, List.length_nil]
          omega
    induction list with
    | nil => simp
    | cons a rest ih =>
      have tailParts := fun b inside => parts b (List.mem_cons_of_mem _ inside)
      simp only [List.flatMap_cons] at same
      have head : part a = whole a := by
        rcases parts a (by simp) with equal | empty
        · exact equal
        · rw [empty, List.nil_append] at same
          have bound := shorter rest tailParts
          rw [same, List.length_append] at bound
          rw [empty, List.length_eq_zero_iff.mp (by omega : (whole a).length = 0)]
      rw [head] at same
      intro b inside
      rcases List.mem_cons.mp inside with rfl | later
      · exact head
      · exact ih tailParts (List.append_cancel_left same) b later
  · intro each
    exact List.flatMap_congr each

theorem carriesReasoning_cons (first : Choice) (rest : List Choice) :
    (first :: rest).any Choice.carriesReasoning = false ↔
      first.carriesReasoning = false ∧ ∀ choice ∈ rest, choice.carriesReasoning = false := by
  rw [List.any_cons, Bool.or_eq_false_iff, List.any_eq_false]
  simp only [Bool.not_eq_true]

/-- One chunk loses only reasoning exactly when it reasons in its first choice. -/
theorem sanitizeChunk_strict_iff (chunk : Chunk) :
    ((∀ sent, (sanitizeChunk chunk .strictOpenai).chunkJson = some sent →
        sent.carriesReasoning = false) ∧ strictPart chunk = chunk.payload) ↔
      chunk.reasonsInFirst := by
  unfold strictPart sanitizeChunk Chunk.reasonsInFirst
  cases choices : chunk.choices with
  | nil =>
    dsimp only
    split_ifs with suppressed
    · simp only [Bool.and_eq_true] at suppressed
      have noChoices : chunk.choices.isEmpty = true := by rw [choices]; rfl
      have empty := payload_of_empty noChoices suppressed.2
      simp [empty]
    · refine iff_of_true ⟨?_, rfl⟩ trivial
      rintro sent ⟨⟩
      unfold Chunk.carriesReasoning Chunk.popRouting
      rw [choices]
      rfl
  | cons first rest =>
    simp only [List.isEmpty_cons, Bool.and_false, Bool.false_and, Bool.false_eq_true, if_false]
    have same : ({ chunk.popRouting with
        choices := { first with fields := first.fields.popReasoning } :: rest } : Chunk).payload =
        chunk.payload := by
      unfold Chunk.payload
      rw [choices]
      simp only [List.flatMap_cons, payload_popReasoning]
      rfl
    split_ifs with alone mixed
    · constructor
      · exact fun both => both.2.symm
      · intro empty
        refine ⟨?_, empty.symm⟩
        rintro sent ⟨⟩
    · simp only [Bool.and_eq_true] at mixed
      have reasons := mixed.1
      simp only [Option.some.injEq, forall_eq', Option.map_some, Option.getD_some, same, and_true]
      unfold Chunk.carriesReasoning
      rw [carriesReasoning_cons, carriesReasoning_popReasoning]
      simp [reasons]
    · have silent : first.fields.hasReasoning = false := by
        cases reasons : first.fields.hasReasoning
        · rfl
        · cases content : first.fields.hasContent <;> cases calls : first.fields.hasToolCalls <;>
            simp_all
      simp only [Option.some.injEq, forall_eq', Option.map_some, Option.getD_some]
      have unchanged : chunk.popRouting.payload = chunk.payload := rfl
      rw [unchanged]
      unfold Chunk.carriesReasoning Chunk.popRouting
      rw [choices, carriesReasoning_cons, silent]
      simp

theorem chunks_removeOnlyReasoning_iff (chunks : List Chunk) :
    RemovesOnlyReasoning (forwarded .strictOpenai chunks) (forwarded .reasoningPassthrough chunks) ↔
      ∀ chunk ∈ chunks, chunk.reasonsInFirst := by
  have whole : (forwarded .reasoningPassthrough chunks).flatMap Chunk.payload =
      chunks.flatMap Chunk.payload := by
    rw [flatMap_forwarded]
    exact List.flatMap_congr fun chunk _ => passthrough_payload chunk
  have sent : (forwarded .strictOpenai chunks).flatMap Chunk.payload =
      chunks.flatMap strictPart := flatMap_forwarded .strictOpenai chunks
  unfold RemovesOnlyReasoning
  rw [whole, sent, flatMap_eq_iff_of_parts fun chunk _ => strictPart_cases chunk]
  constructor
  · rintro ⟨silent, complete⟩ chunk inside
    apply (sanitizeChunk_strict_iff chunk).mp
    refine ⟨?_, complete chunk inside⟩
    intro sent isSent
    exact silent sent (List.mem_filterMap.mpr ⟨chunk, inside, isSent⟩)
  · intro each
    refine ⟨?_, fun chunk inside => ((sanitizeChunk_strict_iff chunk).mpr (each chunk inside)).2⟩
    intro sent isSent
    rcases List.mem_filterMap.mp isSent with ⟨chunk, inside, source⟩
    exact ((sanitizeChunk_strict_iff chunk).mpr (each chunk inside)).1 sent source

theorem response_removesOnlyReasoning_iff (response : Chunk) :
    RemovesOnlyReasoning [(sanitizeResponse response .strictOpenai).responseJson]
        [(sanitizeResponse response .reasoningPassthrough).responseJson] ↔
      response.onlyFirstReasons := by
  unfold RemovesOnlyReasoning Chunk.onlyFirstReasons sanitizeResponse
  simp only [List.mem_singleton, forall_eq, List.flatMap_singleton]
  cases choices : response.choices with
  | nil =>
    refine iff_of_true ⟨?_, rfl⟩ (by simp)
    unfold Chunk.carriesReasoning Chunk.popRouting
    rw [choices]
    rfl
  | cons first rest =>
    simp only [List.tail_cons]
    have same : ({ response.popRouting with
        choices := { first with fields := first.fields.popReasoning } :: rest } : Chunk).payload =
        response.popRouting.payload := by
      unfold Chunk.payload Chunk.popRouting
      rw [choices]
      simp only [List.flatMap_cons, payload_popReasoning]
    split_ifs with reasons
    · rw [same]
      unfold Chunk.carriesReasoning
      rw [carriesReasoning_cons, carriesReasoning_popReasoning]
      simp
    · unfold Chunk.carriesReasoning Chunk.popRouting
      rw [choices, carriesReasoning_cons]
      have silent : first.carriesReasoning = false := Bool.not_eq_true _ ▸ reasons
      simp [silent]

/-- Strict mode removes only reasoning exactly when only first choices reason and a suppressed chunk
carries nothing else. -/
theorem strict_mode_removes_only_reasoning (chunks : List Chunk) (response : Chunk) :
    (RemovesOnlyReasoning (forwarded .strictOpenai chunks)
        (forwarded .reasoningPassthrough chunks) ↔ ∀ chunk ∈ chunks, chunk.reasonsInFirst) ∧
    (RemovesOnlyReasoning [(sanitizeResponse response .strictOpenai).responseJson]
        [(sanitizeResponse response .reasoningPassthrough).responseJson] ↔
      response.onlyFirstReasons) :=
  ⟨chunks_removeOnlyReasoning_iff chunks, response_removesOnlyReasoning_iff response⟩

def cutOffReasoning : Chunk where
  choices := [{
    index := 0
    fields := (∅ : Fields).insert "reasoning_content" (.str "so")
    finishReason := .str "length" }]
  usage := .null
  routing := .null

/-- A chunk cut off while reasoning loses its finish reason in strict mode. -/
theorem strict_mode_drops_finish_reason :
    ¬ ∀ chunks : List Chunk, RemovesOnlyReasoning (forwarded .strictOpenai chunks)
      (forwarded .reasoningPassthrough chunks) := by
  intro claimed
  have lengths := congrArg List.length (claimed [cutOffReasoning]).2
  have strict : ((forwarded .strictOpenai [cutOffReasoning]).flatMap Chunk.payload).length = 0 := by
    decide +kernel
  have passthrough : ((forwarded .reasoningPassthrough [cutOffReasoning]).flatMap
      Chunk.payload).length = 1 := by
    decide +kernel
  omega

end HybridInference.Chat
