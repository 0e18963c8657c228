import LivePage.Render.Processor
import LivePage.Markdown.Document
import LivePage.Markdown.Inline
import LivePage.Markdown.Run
import LivePage.Markdown.Block
import LivePage.Markdown.Table
import LivePage.Recovery
import LivePage.Markdown.Scan
import LivePage.Text.Reference
import LivePage.Render.Rules
import LivePage.Render.Stored
import LivePage.Typography.Typographer
import LivePage.Actions.Standard
import LivePage.Files.Tree
import LivePage.Main
import LivePage.Proofs.Chart.Declaration
import LivePage.Proofs.Html.Store
import LivePage.Proofs.Html.Tree
import LivePage.Proofs.Html.Reading
import LivePage.Proofs.Html.Kept
import LivePage.Proofs.Chart.Embedding
import LivePage.Proofs.Chart.Latch
import LivePage.Proofs.Chart.PassEffect
import LivePage.Proofs.Chart.Agreement
import LivePage.Proofs.Chart.ScriptText
import LivePage.Proofs.Render.Overrides
import LivePage.Proofs.Actions.Copying
import LivePage.Proofs.Render.Identifiers
import LivePage.Proofs.Render.ImageSource
import LivePage.Proofs.Chart.Normalizing
import LivePage.Proofs.Html.Blocks
import LivePage.Proofs.Render.Scheme
import LivePage.Proofs.Actions.Session
import LivePage.Proofs.Chart.Placeholders
import LivePage.Proofs.Typography.Quotes
import LivePage.Proofs.Text.Normalized
import LivePage.Proofs.Text.Scanning
import LivePage.Proofs.Chart.ScriptValue
import LivePage.Proofs.Chart.Interrupting
import LivePage.Proofs.Render.Hardening
import LivePage.Proofs.Chart.Hydrated
import LivePage.Proofs.Typography.Stable
import LivePage.Proofs.Config.Layers
import LivePage.Proofs.Config.Settings
import LivePage.Proofs.Actions.Broadcast
import LivePage.Proofs.Actions.Dispatch
import LivePage.Proofs.Text.Places
import LivePage.Proofs.Render.ImageMarkup
import LivePage.Proofs.Render.Title
