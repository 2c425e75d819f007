import PageSweep.Main
import PageSweep.Visit.Timeline
import PageSweep.Proofs.Crowd.Runs
import PageSweep.Proofs.Pass.Agreement
import PageSweep.Proofs.Pass.Depth
import PageSweep.Proofs.Page.Numbered
import PageSweep.Proofs.Cookie.Jar
import PageSweep.Proofs.Cookie.Writing
import PageSweep.Proofs.Cookie.Directive
import PageSweep.Proofs.Cookie.Header
import PageSweep.Proofs.Cookie.HostDomain
import PageSweep.Proofs.Cookie.Scripted
import PageSweep.Proofs.Page.Reachable
import PageSweep.Proofs.Pass.Ends
import PageSweep.Proofs.Pass.Trail
import PageSweep.Proofs.Pass.ClearingText
import PageSweep.Proofs.Pass.Clearing
import PageSweep.Proofs.Pass.ClearingAll
import PageSweep.Proofs.Page.Alike
import PageSweep.Proofs.Pass.Reopening
import PageSweep.Proofs.Pass.Shrinking
import PageSweep.Proofs.Crowd.Timelines
import PageSweep.Proofs.Pass.GlobalStyles
import PageSweep.Proofs.Pass.RuleQueue
import PageSweep.Proofs.Pass.Traceless
import PageSweep.Proofs.Page.Uprooting
import PageSweep.Proofs.Pass.Account
import PageSweep.Proofs.Crowd.Borrowers
import PageSweep.Proofs.Crowd.OpenPage
import PageSweep.Proofs.Page.Finding
import PageSweep.Proofs.Page.Pruning
import PageSweep.Proofs.Page.Dressing
import PageSweep.Proofs.Pass.Settling
import PageSweep.Proofs.Pass.Removal
import PageSweep.Proofs.Pass.Groups
import PageSweep.Proofs.Pass.Unread
import PageSweep.Proofs.Schema.Shapes
import PageSweep.Proofs.Schema.Layers
import PageSweep.Proofs.Remote.Faithful
import PageSweep.Proofs.Visit.Passages
import PageSweep.Proofs.Visit.Plans
import PageSweep.Proofs.Remote.Calls
import PageSweep.Proofs.Crowd.OnlinePage
import PageSweep.Proofs.CommandLine.Validity
import PageSweep.Proofs.CommandLine.Counting
import PageSweep.Proofs.Page.WellLinked
import PageSweep.Proofs.Selector.Meaning
import PageSweep.Proofs.Selector.ReadBack
import PageSweep.Proofs.Remote.GistAddress
import PageSweep.Proofs.Cookie.Expiry
import PageSweep.Proofs.Pass.Matches
import PageSweep.Proofs.Selector.Attributes
import PageSweep.Proofs.Schema.Emptiness
import PageSweep.Proofs.Settings.Warnings
import PageSweep.Proofs.CommandLine.References
import PageSweep.Proofs.Pass.Flattening
import PageSweep.Proofs.Selector.Brackets
import PageSweep.Proofs.Pass.PageCounts
