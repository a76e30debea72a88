import SmartDnsPlusUi.Config.CanonicalRules
import SmartDnsPlusUi.Config.GroupBalance
import SmartDnsPlusUi.Config.BlockAssets
import SmartDnsPlusUi.Config.GroupScope
import SmartDnsPlusUi.Config.Preview
import SmartDnsPlusUi.Config.SaveFiles
import SmartDnsPlusUi.Config.ConcurrentSaves
import SmartDnsPlusUi.Ui.ManagedTextRoundTrip
import SmartDnsPlusUi.Ui.RoutingEditsExact
import SmartDnsPlusUi.Ui.UpstreamsAgree
import SmartDnsPlusUi.Ui.PageSaves
import SmartDnsPlusUi.Server.FilterMode
import SmartDnsPlusUi.Server.Retention
import SmartDnsPlusUi.Server.LogDelivery
import SmartDnsPlusUi.Server.LogLevel
import SmartDnsPlusUi.Server.ApiMsgRoundTrip
import SmartDnsPlusUi.Server.TokenRuns
import SmartDnsPlusUi.Server.Auth
import SmartDnsPlusUi.Server.LoginLimiter
import SmartDnsPlusUi.Server.PasswordChange
import SmartDnsPlusUi.Server.Schema
import SmartDnsPlusUi.Server.MacAttribution
import SmartDnsPlusUi.Server.StaticFiles
import SmartDnsPlusUi.Server.StreamMessages
import SmartDnsPlusUi.Server.WhoisCache
import SmartDnsPlusUi.Server.ServerByDomain
import SmartDnsPlusUi.Server.ChangingWalks
import SmartDnsPlusUi.Server.WindowLength
import SmartDnsPlusUi.Server.ApiGate
import SmartDnsPlusUi.Server.TopLists
import SmartDnsPlusUi.Config.RuleSetPages
import SmartDnsPlusUi.Config.SetReferences
import SmartDnsPlusUi.Config.LogicalSpans
import SmartDnsPlusUi.Config.Backups
import SmartDnsPlusUi.Config.SettingsRoundTrip
import SmartDnsPlusUi.Config.LoadSave
import SmartDnsPlusUi.Config.InterruptedSave
