import HubConsole.Command.Completion
import HubConsole.Main
import HubConsole.Proofs.Failure
import HubConsole.Proofs.Pin
import HubConsole.Proofs.Stored
import HubConsole.Proofs.Attended
import HubConsole.Proofs.TabOrder
import HubConsole.Proofs.Layers
import HubConsole.Proofs.Identity
import HubConsole.Proofs.Restart
import HubConsole.Proofs.Unloaded
import HubConsole.Proofs.Isolation
import HubConsole.Proofs.ChatCompletion
import HubConsole.Proofs.SettingCompletion
import HubConsole.Proofs.CommandCompletion
import HubConsole.Proofs.Chat
import HubConsole.Proofs.QueryText
import HubConsole.Proofs.AddressGrammar
import HubConsole.Proofs.Accumulator
import HubConsole.Proofs.DigestText
import HubConsole.Proofs.TypedKeyprint
import HubConsole.Proofs.GrantTable
import HubConsole.Proofs.Revocable
import HubConsole.Proofs.Whois
import HubConsole.Proofs.Closing
import HubConsole.Proofs.HubCompletion
import HubConsole.Proofs.IntervalText
import HubConsole.Proofs.NickCompletion
import HubConsole.Proofs.ReadPaths
import HubConsole.Proofs.IntervalParts
import HubConsole.Proofs.ShownSize
import HubConsole.Proofs.UnusedIds
import HubConsole.Proofs.ColorCompletion
import HubConsole.Proofs.Nick
import HubConsole.Proofs.Stamp
import HubConsole.Proofs.CommandTable
