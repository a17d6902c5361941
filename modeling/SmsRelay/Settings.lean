-- SUMMARY: The sections of the configuration file.
import SmsRelay.Config
import SmsRelay.Log.Setup

/-!
# Settings

The configuration file: a JSON object with a section for the gateway, one for
the store and one for the log, each of which may be left out.
-/

namespace SmsRelay

structure Settings where
  gateway : Config
  /-- The path of the database. -/
  database : String
  logging : Value

namespace Settings

/-- The configuration file that comes with the relay. -/
def standard : Value :=
  .object
    [("gateway", .object
        [("poll_interval_seconds", .int 10), ("transmit_batch_size", .int 64),
          ("delete_batch_size", .int 1024), ("prefix", .null), ("executable", .text "gammu-json")]),
      ("storage", .object [("db_path", .text "smsrelay.db")]),
      ("logging", .object
        [("enabled", .bool true), ("level", .text "INFO"), ("console", .bool true),
          ("mask_numbers", .bool false),
          ("file", .object
            [("enabled", .bool false), ("path", .text "logs/smsrelay.log"),
              ("max_bytes", .int 5242880), ("backup_count", .int 5)])])]

/-- The settings that the content of the configuration file gives. The database is taken below
`root`. -/
def ofValue (root : String) (content : Value) : Except Fault Settings := do
  let fields ← content.fields
  let gateway ← Config.ofValue (Value.fieldOr fields "gateway" (.object []))
  let storage ← (Value.fieldOr fields "storage" (.object [])).fields
  let database ← match Value.fieldOr storage "db_path" (.text "smsrelay.db") with
    | .text path => pure (Path.join root path)
    | v => throw (.notPath v.kind)
  return { gateway, database, logging := Value.fieldOr fields "logging" (.object []) }

/-- Line ends of every kind as line feeds. -/
def unifyLines : List Char → List Char
  | '\r' :: '\n' :: cs => '\n' :: unifyLines cs
  | '\r' :: cs => '\n' :: unifyLines cs
  | c :: cs => c :: unifyLines cs
  | [] => []

/-- The settings that the text of the configuration file gives. -/
def ofText (root text : String) : Except Fault Settings := do
  let content ← (Json.parse (String.ofList (unifyLines text.toList))).mapError .badJson
  ofValue root content

end Settings

end SmsRelay
