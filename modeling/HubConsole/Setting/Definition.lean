import HubConsole.Clock.Format
import HubConsole.Setting.Kind

/-! # Definitions of settings

Each setting has a kind and the tiers at which it may hold a value: globally, per hub, or both. Some
have a default, and some a check beyond their kind. Hidden settings are the program's own notes on
hubs. -/

namespace HubConsole
open Text

/-- The id of a hub. The id 0 is never given to a hub. -/
abbrev HubId := UInt64

inductive Scope where
  | global
  | hub (id : HubId)
deriving DecidableEq, Repr

/-- The id under which the values of a scope are stored: 0 for the global ones. -/
def Scope.id : Scope → HubId
  | global => 0
  | hub id => id

namespace Setting

inductive Tiers where
  | global
  | hub
  | both
deriving DecidableEq, Repr

namespace Tiers

def allowsGlobal : Tiers → Bool
  | hub => false
  | _ => true

def allowsHub : Tiers → Bool
  | global => false
  | _ => true

def allows (t : Tiers) : Scope → Bool
  | .global => t.allowsGlobal
  | .hub _ => t.allowsHub

def label : Tiers → String
  | global => "global"
  | hub => "hub"
  | both => "global & hub"

end Tiers

/-- What a value must satisfy beyond its kind. -/
inductive Check where
  | nick
  | timeFormat
deriving DecidableEq, Repr

namespace Check

inductive Error where
  | nickLength
  | nickCharacter
  | badTimeFormat
deriving DecidableEq, Repr

def Error.message : Error → String
  | nickLength => "Nick must be between 1 and 32 characters."
  | nickCharacter => "Nick may not contain spaces or any of $|<>."
  | badTimeFormat => "Invalid time format."

/-- The number of bytes that a nick may take. -/
def nickLimit : Nat := 32

def isBarredFromNick (c : Char) : Bool := isBlank c || "$|<>".toList.contains c

def run (c : Check) (s : String) : Except Error Unit :=
  match c with
  | nick =>
    if s.toList.isEmpty || nickLimit < byteLength s.toList then throw .nickLength
    else if s.toList.any isBarredFromNick then throw .nickCharacter
    else pure ()
  | timeFormat => if Clock.Format.isFormat s then pure () else throw .badTimeFormat

end Check

structure Definition where
  name : String
  tiers : Tiers
  kind : Kind
  doc : String
  /-- The text of the value where none is stored. -/
  default? : Option String
  check? : Option Check
  hidden : Bool

def policy : Kind := .choice ["disabled", "allow", "prefer"]

def encoding : Kind :=
  .choice ["CP1250", "CP1251", "CP1252", "ISO-8859-1", "ISO-8859-2", "ISO-8859-15", "KOI8-R",
    "UTF-8"]

def unset (name : String) (tiers : Tiers) (kind : Kind) (doc : String) : Definition :=
  ⟨name, tiers, kind, doc, none, none, false⟩

def preset (name : String) (tiers : Tiers) (kind : Kind) (default doc : String) : Definition :=
  ⟨name, tiers, kind, doc, some default, none, false⟩

def note (name doc : String) : Definition := ⟨name, .hub, .text, doc, none, none, true⟩

def hubName : String := "hubname"

def hubAddress : String := "hubaddr"

def hubKeyprint : String := "hubkp"

/-- All settings in alphabetic order. -/
def definitions : List Definition := [
  preset "active" .global .bool "false" "Accept incoming connections from other clients.",
  unset "active_port" .both (.int 1 65535)
    "Port to listen on for incoming TCP and UDP connections.",
  preset "autoconnect" .hub .bool "false" "Connect to this hub on startup.",
  preset "backlog" .both (.int 0 512) "0"
    "Number of chat lines to load from the log when opening a tab.",
  preset "chat_only" .both .bool "false"
    "Announce as a chat-only client and do not share files.",
  preset "color_log_default" .global .style "default" "Color of regular log lines.",
  preset "color_log_error" .global .style "red,bold" "Color of error messages.",
  preset "color_log_highlight" .global .style "yellow,bold"
    "Color of chat lines mentioning your nick.",
  preset "color_log_time" .global .style "blue" "Color of timestamps.",
  unset "description" .both .text "Free-form description shown to other users.",
  unset "download_dir" .global .path "Directory finished downloads are moved to.",
  unset "download_exclude" .global .pattern
    "Files matching this expression are skipped when queueing directories.",
  unset "download_rate" .global .speed
    "Maximum combined download speed. Unset for unlimited.",
  preset "download_slots" .global (.int 1 64) "3" "Number of simultaneous downloads.",
  unset "email" .both .text "E-mail address shown to other users.",
  preset "encoding" .both encoding "UTF-8" "Character encoding used for NMDC hubs.",
  preset "filelist_maxage" .global .interval "1w"
    "Cached file lists older than this are downloaded again.",
  unset "hash_rate" .global .speed "Maximum disk read speed while hashing shared files.",
  note hubAddress "Address of the hub.",
  note hubKeyprint "Pinned keyprint of the hub certificate.",
  note hubName "Tab name of the hub.",
  preset "log_debug" .global .bool "false" "Write protocol debug messages to a file.",
  preset "log_downloads" .global .bool "true" "Log finished downloads.",
  preset "log_hubchat" .both .bool "true" "Log hub chat to a file.",
  preset "log_uploads" .global .bool "true" "Log finished uploads.",
  preset "minislot_size" .global (.int 64 1048576) "64"
    "Files up to this size in KiB may be sent over a minislot.",
  preset "minislots" .global (.int 0 128) "3"
    "Number of minislots granted for small files and file lists.",
  { unset "nick" .both .text "Your nick name." with check? := some .nick },
  preset "reconnect_timeout" .both .interval "30s"
    "Wait this long before reconnecting to a hub after losing the connection.",
  unset "share_exclude" .global .pattern "Files matching this expression are not shared.",
  preset "share_hidden" .global .bool "false" "Share hidden files and directories.",
  preset "show_joinquit" .both .bool "false" "Show users joining and leaving the hub.",
  preset "slots" .global (.int 1 1000) "10" "Number of upload slots.",
  preset "sudp_policy" .both policy "allow" "Encrypt UDP search results.",
  preset "tls_policy" .both policy "prefer" "Use TLS for client-to-client transfers.",
  { preset "ui_time_format" .global .text "[%H:%M:%S]"
      "strftime format of the timestamp in front of log lines." with check? := some .timeFormat },
  unset "upload_rate" .global .speed "Maximum combined upload speed. Unset for unlimited."]

/-- The definition of this name, hidden ones included. -/
def find? (name : String) : Option Definition := definitions.find? fun d => d.name == name

def visible : List Definition := definitions.filter fun d => !d.hidden

end Setting
end HubConsole
