import HubConsole.Address
import HubConsole.Grant
import HubConsole.Query
import HubConsole.Setting.Store

/-! # Failures of commands

Why a command does not do what it is asked to. -/

namespace HubConsole

inductive Failure where
  /-- No command has this name; another one may have been meant. -/
  | unknownCommand (name : String) (meant : Option String)
  | takesNoArguments
  | needsHubTab
  | needsHubOrUserTab
  | needsMainOrHubTab
  | notConnected
  | notIdle
  | noConnection
  | emptyMessage
  | userOffline (nick : String)
  | userNotFound (name : String)
  /-- The command needs a user's name, about which its help tells more. -/
  | missingUser (topic : Option String)
  | missingPassword
  | missingHubName
  | tooManyArguments
  | badHubName
  | badAddress (e : Address.Error)
  | noHubId
  | noAddress
  | noOpenHub
  | mainTab
  | badQuery (e : Query.Error)
  | noHubToSearch
  | missingSetting (topic : String)
  | otherTier (command : String)
  | noMatch (pattern : String)
  | badSetting (e : Store.Error)
  | badGrant (e : Grants.Error)
  | unknownSection (name : String)
  | noHelp (name : String)
deriving DecidableEq, Repr

namespace Failure

def message : Failure → String
  | unknownCommand name none => s!"Unknown command '/{name}'."
  | unknownCommand name (some meant) => s!"Unknown command '/{name}'. Did you mean /{meant}?"
  | takesNoArguments => "This command does not accept any arguments."
  | needsHubTab => "This command can only be used on hub tabs."
  | needsHubOrUserTab => "This command can only be used on hub and user tabs."
  | needsMainOrHubTab => "This command can only be used on the main tab or hub tabs."
  | notConnected => "Not connected."
  | notIdle => "Already connected (or connecting). You may want to /disconnect first."
  | noConnection => "Not connected to any hub."
  | emptyMessage => "Message empty."
  | userOffline nick => s!"{nick} is not online."
  | userNotFound name => s!"No user named '{name}' on this hub."
  | missingUser none => "No user specified."
  | missingUser (some topic) => s!"No user specified. See /help {topic} for more information."
  | missingPassword => "No password given."
  | missingHubName => "No hub name given. See /help open for more information."
  | tooManyArguments => "Too many arguments."
  | badHubName =>
    "Invalid hub name, only letters, digits and _.- are allowed, up to 25 characters."
  | badAddress e => e.message
  | noHubId => "No free hub id left."
  | noAddress => "No hub address configured. Use '/connect <address>' to do so."
  | noOpenHub => "No open hubs with a known address."
  | mainTab => "Main tab cannot be closed."
  | badQuery e => e.message
  | noHubToSearch => "Not on a hub tab. Use -all to search every connected hub."
  | missingSetting topic => s!"No setting given. See /help {topic} for more information."
  | otherTier command => s!"No matching settings at this tier, try /{command}."
  | noMatch pattern => s!"No settings matching '{pattern}'."
  | badSetting e => e.message
  | badGrant e => e.message
  | unknownSection name => s!"Unknown key section '{name}'."
  | noHelp name => s!"No help for unknown command '/{name}'."

end Failure

abbrev Attempt (α : Type) := Except Failure α

end HubConsole
