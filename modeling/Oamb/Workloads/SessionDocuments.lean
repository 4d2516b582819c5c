import Oamb.Foundation.JsonText
import Oamb.Foundation.StatefulExecution

/-!
# The documents of sessions

The messages of a session of LongMemEval are written as one JSON document: an array of objects with
a role and a content, without blanks and in UTF-8. The messages are parsed ones or mappings as they
stand in a dataset.
-/

set_option autoImplicit false

namespace Oamb.Workloads.SessionDocuments

open Foundation Foundation.JsonText Foundation.StatefulExecution

/-- A message of a session. -/
structure LongMemEvalMessage where
  role : String
  content : String
  hasAnswer : Option Bool
  deriving DecidableEq

/-- A message, parsed or as a mapping. -/
inductive RawMessage
  | parsed (message : LongMemEvalMessage)
  | mapping (fields : Json)

def messageRoles : List String := ["user", "assistant"]

/-- The role and the content of a message, `null` when a mapping has none. -/
def RawMessage.values : RawMessage → Json × Json
  | parsed message => (.string message.role, .string message.content)
  | mapping fields => (fields.get "role", fields.get "content")

/-- The object of a role and a content. -/
def messageObject (message : String × String) : Json :=
  .object [("role", .string message.1), ("content", .string message.2)]

/-- The role and the content that are written for a message. -/
def renderedMessage (rawMessage : RawMessage) : Except String (String × String) :=
  match rawMessage.values with
  | (.string role, .string content) =>
    if role ∈ messageRoles then .ok (role, content)
    else .error "LongMemEval messages require a valid role and text content"
  | _ => .error "LongMemEval messages require a valid role and text content"

def renderLmeSessionDocument (messages : List RawMessage) : Except String Bytes := do
  let rendered ← messages.mapM renderedMessage
  pure (utf8 (write false (.array (rendered.map messageObject))))

/-- The messages that a parsed list stands for. -/
def LongMemEvalMessage.spoken (message : LongMemEvalMessage) : String × String :=
  (message.role, message.content)

theorem renderedMessage_parsed {message : LongMemEvalMessage}
    (hrole : message.role ∈ messageRoles) :
    renderedMessage (.parsed message) = .ok message.spoken := by
  unfold renderedMessage
  simp only [RawMessage.values, if_pos hrole]
  rfl

/-- Parsed messages with valid roles are written. -/
theorem renderLmeSessionDocument_parsed {messages : List LongMemEvalMessage}
    (hroles : ∀ message ∈ messages, message.role ∈ messageRoles) :
    renderLmeSessionDocument (messages.map .parsed) =
      .ok (utf8 (write false (.array ((messages.map LongMemEvalMessage.spoken).map
        messageObject)))) := by
  have hrendered : (messages.map RawMessage.parsed).mapM renderedMessage =
      .ok (messages.map LongMemEvalMessage.spoken) := by
    rw [mapM_eq_ok, List.map_map, List.map_map]
    exact List.map_congr_left fun message hmessage ↦
      renderedMessage_parsed (hroles message hmessage)
  unfold renderLmeSessionDocument
  rw [hrendered]
  rfl

end Oamb.Workloads.SessionDocuments
