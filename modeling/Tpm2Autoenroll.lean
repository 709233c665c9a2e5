import Tpm2Autoenroll.Buffering.Buffers
import Tpm2Autoenroll.Buffering.Places
import Tpm2Autoenroll.Children.Attaining
import Tpm2Autoenroll.Children.Collecting
import Tpm2Autoenroll.Children.Lending
import Tpm2Autoenroll.Children.Lifetimes
import Tpm2Autoenroll.Children.Pipes
import Tpm2Autoenroll.Children.Verbosity
import Tpm2Autoenroll.Children.Wiping
import Tpm2Autoenroll.Cutting.Codes
import Tpm2Autoenroll.Cutting.FirstHits
import Tpm2Autoenroll.Cutting.Separators
import Tpm2Autoenroll.Exchanges.Banks
import Tpm2Autoenroll.Exchanges.Commands
import Tpm2Autoenroll.Exchanges.Conversations
import Tpm2Autoenroll.Exchanges.Faultless
import Tpm2Autoenroll.Exchanges.Lockouts
import Tpm2Autoenroll.Exchanges.PcrReads
import Tpm2Autoenroll.Exchanges.Policies
import Tpm2Autoenroll.Exchanges.Readings
import Tpm2Autoenroll.Exchanges.Rounds
import Tpm2Autoenroll.Exchanges.Sessions
import Tpm2Autoenroll.Exchanges.Unmarshalling
import Tpm2Autoenroll.Grammars.BindNames
import Tpm2Autoenroll.Grammars.Configs
import Tpm2Autoenroll.Grammars.Consents
import Tpm2Autoenroll.Grammars.LossyText
import Tpm2Autoenroll.Grammars.SameSelections
import Tpm2Autoenroll.Guarding.Faults
import Tpm2Autoenroll.Interaction.Driving
import Tpm2Autoenroll.Interaction.Fallible
import Tpm2Autoenroll.Interaction.Handling
import Tpm2Autoenroll.Interaction.Keeping
import Tpm2Autoenroll.Interaction.Mirroring
import Tpm2Autoenroll.Interaction.Monitors
import Tpm2Autoenroll.Interaction.Programs
import Tpm2Autoenroll.Model.ChildRun
import Tpm2Autoenroll.Model.Config
import Tpm2Autoenroll.Model.Connection
import Tpm2Autoenroll.Model.Daemon
import Tpm2Autoenroll.Model.Implementation
import Tpm2Autoenroll.Model.Json
import Tpm2Autoenroll.Model.KeyFile
import Tpm2Autoenroll.Model.Peer
import Tpm2Autoenroll.Model.Prompts
import Tpm2Autoenroll.Model.Repair
import Tpm2Autoenroll.Model.Sockets
import Tpm2Autoenroll.Model.System
import Tpm2Autoenroll.Model.Text
import Tpm2Autoenroll.Model.Token
import Tpm2Autoenroll.Model.TpmDevice
import Tpm2Autoenroll.Model.TpmParsing
import Tpm2Autoenroll.Model.TpmWire
import Tpm2Autoenroll.Processes.PidTable
import Tpm2Autoenroll.Secrecy.Renamings
import Tpm2Autoenroll.Secrecy.Unobserved
import Tpm2Autoenroll.Serving.AskOnce
import Tpm2Autoenroll.Serving.Cleanup
import Tpm2Autoenroll.Serving.Connections
import Tpm2Autoenroll.Serving.ConsentHistory
import Tpm2Autoenroll.Serving.DeadSockets
import Tpm2Autoenroll.Serving.Directory
import Tpm2Autoenroll.Serving.Disclosure
import Tpm2Autoenroll.Serving.DueRepairs
import Tpm2Autoenroll.Serving.Footprints
import Tpm2Autoenroll.Serving.HeaderGate
import Tpm2Autoenroll.Serving.IdleExit
import Tpm2Autoenroll.Serving.KeyFiles
import Tpm2Autoenroll.Serving.Levels
import Tpm2Autoenroll.Serving.Outcomes
import Tpm2Autoenroll.Serving.Processes
import Tpm2Autoenroll.Serving.Reporting
import Tpm2Autoenroll.Serving.Requests
import Tpm2Autoenroll.Serving.Rules
import Tpm2Autoenroll.Serving.Scenes
import Tpm2Autoenroll.Serving.Sealing
import Tpm2Autoenroll.Serving.Searching
import Tpm2Autoenroll.Serving.SharedScenes
import Tpm2Autoenroll.Serving.Stopping
import Tpm2Autoenroll.Serving.Strangers
import Tpm2Autoenroll.Serving.Surveys
import Tpm2Autoenroll.Serving.TpmDiscipline
import Tpm2Autoenroll.Serving.Trials
import Tpm2Autoenroll.Sorting.Ascending
import Tpm2Autoenroll.Surroundings.Digits
import Tpm2Autoenroll.Surroundings.Escapes
import Tpm2Autoenroll.Surroundings.Headers
import Tpm2Autoenroll.Surroundings.Malformed
import Tpm2Autoenroll.Surroundings.NewTokens
import Tpm2Autoenroll.Surroundings.PeerIdentity
import Tpm2Autoenroll.Surroundings.Selections
import Tpm2Autoenroll.Surroundings.Tokens
import Tpm2Autoenroll.Surroundings.UnitNames
import Tpm2Autoenroll.Surroundings.World
