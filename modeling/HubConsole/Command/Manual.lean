/-! # The manual

What the help of each command says. A command without an entry has a placeholder. -/

namespace HubConsole.Command

inductive Category where
  | chat
  | hubs
  | settings
  | transfers
  | other
deriving DecidableEq, Repr

namespace Category

def heading : Category → String
  | chat => "CHAT"
  | hubs => "HUBS"
  | settings => "SETTINGS"
  | transfers => "SEARCH & TRANSFERS"
  | other => "OTHER"

def order : Category → Nat
  | chat => 0
  | hubs => 1
  | settings => 2
  | transfers => 3
  | other => 4

def all : List Category := [chat, hubs, settings, transfers, other]

end Category

/-- The entry of a command in the manual. -/
structure Doc where
  name : String
  category : Category
  args : String
  summary : String
  description : Option String
deriving DecidableEq, Repr

namespace Doc

def placeholder (name : String) : Doc := ⟨name, .other, "", "No documentation available.", none⟩

def usage (d : Doc) : String := if d.args == "" then "/" ++ d.name else s!"/{d.name} {d.args}"

/-- All entries in alphabetic order. -/
def manual : List Doc := [
  ⟨"clear", .other, "", "Clear the screen.", none⟩,
  ⟨"close", .hubs, "", "Close the current tab.",
    some ("Closing a hub tab disconnects from the hub and closes every private message tab " ++
      "opened on it. The main tab cannot be closed.")⟩,
  ⟨"connect", .hubs, "[<address>]", "Connect the current hub tab.",
    some ("Connect to the given address, or to the address used the last time when none is " ++
      "given. The address is remembered for the next /open or /reconnect.\n\n" ++
      "Accepted forms are [dchub|nmdc|nmdcs|adc|adcs://]host[:port][/?kp=SHA256/<keyprint>]. " ++
      "The port defaults to 411. A keyprint pins the hub certificate and is only accepted " ++
      "with the nmdcs:// and adcs:// protocols. Connecting to another address forgets a " ++
      "pinned keyprint unless a new one is given.")⟩,
  ⟨"disconnect", .hubs, "", "Disconnect from the hub.",
    some "On the main tab this disconnects from every connected hub."⟩,
  ⟨"grant", .transfers, "[<user>]", "Grant a slot to a user.",
    some ("A granted user may download from you even when all upload slots are in use. " ++
      "Without arguments, lists the users with a granted slot.")⟩,
  ⟨"help", .other, "[<command>|set <key>|keys [<section>]]", "Request information on commands.",
    some ("Without arguments, lists all commands. '/help <command>' describes a command, " ++
      "'/help set <key>' describes a setting and '/help keys' lists the key bindings.")⟩,
  ⟨"hset", .settings, "[<key> [<value>]]", "Get or set a hub setting.",
    some ("Like /set, but for the hub of the current tab. A hub setting overrides the global " ++
      "value for that hub only. Use /hunset to go back to the global value.")⟩,
  ⟨"hunset", .settings, "<key>", "Remove a hub setting, falling back to the global value.", none⟩,
  ⟨"kick", .hubs, "<user>", "Kick a user from the hub.",
    some "Requires operator status on the hub."⟩,
  ⟨"me", .chat, "<message>", "Send a chat message in the third person.", none⟩,
  ⟨"msg", .chat, "<user> [<message>]", "Send a private message.",
    some "Opens a private message tab with the user and, when a message is given, sends it."⟩,
  ⟨"open", .hubs, "[-n] <name> [<address>]", "Open a new hub tab and connect to the hub.",
    some ("Opens the tab named #<name>, or switches to it if it is already open. Settings " ++
      "changed with /hset are remembered under this name. When an address is given it is " ++
      "stored as with /connect. With -n, the tab is opened without connecting.")⟩,
  ⟨"password", .hubs, "<password>", "Send your password to the hub.",
    some "Only needed when the hub asks for a password during login."⟩,
  ⟨"quit", .other, "", "Quit dcline.", none⟩,
  ⟨"reconnect", .hubs, "", "Reconnect to the hub.",
    some ("Useful after changing settings that are only sent on login, such as your nick or " ++
      "description. On the main tab this reconnects every open hub.")⟩,
  ⟨"say", .chat, "<message>", "Send a chat message.",
    some ("Any line not starting with / is sent with this command. Leading and trailing " ++
      "spaces are part of the message.")⟩,
  ⟨"search", .transfers, "[options] <query>", "Search for files.",
    some ("Options:\n" ++
      "  -hub      Search the current hub only (default)\n" ++
      "  -all      Search all connected hubs\n" ++
      "  -le <s>   Size less than or equal to <s>\n" ++
      "  -ge <s>   Size greater than or equal to <s>\n" ++
      "  -t <t>    File type: any, audio, archive, doc, exe, img, video, dir, or 1-8\n" ++
      "  -tth <h>  Search for a file by its TTH\n" ++
      "  --        Stop looking for options\n\n" ++
      "Sizes accept the K, M, G and T suffixes (powers of 1024). Quote terms containing " ++
      "spaces.")⟩,
  ⟨"set", .settings, "[<key> [<value>]]", "Get or set a global setting.",
    some ("Without arguments, lists every global setting. With only a key, shows its value. " ++
      "The key may contain the wildcards * and ? to list matching settings. Use " ++
      "'/help set <key>' to read about a setting.")⟩,
  ⟨"ungrant", .transfers, "<user>", "Revoke a granted slot.",
    some ("The user is matched by name, ignoring case, or else by a prefix of the user id " ++
      "shown by /grant.")⟩,
  ⟨"unset", .settings, "<key>", "Reset a global setting to its default.", none⟩,
  ⟨"version", .other, "", "Show the version.", none⟩,
  ⟨"whois", .hubs, "[<user>]", "Show information about a user.",
    some "On a private message tab the user defaults to the other party."⟩]

def of (name : String) : Doc := (manual.find? fun d => d.name == name).getD (placeholder name)

end Doc
end HubConsole.Command
