import ProductionRag.Api.Overtaken
import ProductionRag.Store.Agreement
import ProductionRag.Store.Tenants
import ProductionRag.Store.PostgresTenants
import ProductionRag.Store.Linear
import ProductionRag.Store.Publishing
import ProductionRag.Store.Patches
import ProductionRag.Queue.Lease
import ProductionRag.Queue.Recoverable
import ProductionRag.Queue.Redelivery
import ProductionRag.Migrations
import ProductionRag.Chat.Postgres
import ProductionRag.Gateway.Skips
import ProductionRag.Api.Evidence
import ProductionRag.Providers.Sources
import ProductionRag.Providers.Numerals
import ProductionRag.Api.Packing
import ProductionRag.Api.Failures
import ProductionRag.Api.TokenBudget
import ProductionRag.Ingestion.Sanitize
import ProductionRag.Api.RateLimiter
import ProductionRag.Gateway.Longest
import ProductionRag.Gateway.Routing
import ProductionRag.Gateway.Deadline
import ProductionRag.Gateway.Probes
import ProductionRag.Providers.Quoting
import ProductionRag.Providers.Declined
import ProductionRag.Api.FollowUp
import ProductionRag.Api.Calibration
import ProductionRag.Api.Callers
import ProductionRag.Api.DailyCap
import ProductionRag.Api.DisplayNames
import ProductionRag.Api.Markers
import ProductionRag.Observability.Scrape
import ProductionRag.Byok.Note
import ProductionRag.Api.DocumentIds
import ProductionRag.Evals
import ProductionRag.Ingestion.Html
import ProductionRag.Api.Reranker
import ProductionRag.Store.Fusion
import ProductionRag.Store.Search
import ProductionRag.Api.Retrieve
import ProductionRag.Api.Tenants
import ProductionRag.Queue.InProcess
import ProductionRag.Api.StoredRows
import ProductionRag.Api.Responses
import ProductionRag.Api.Origins
import ProductionRag.Api.Conversations
import ProductionRag.Api.Pages
import ProductionRag.Byok.Requests
import ProductionRag.Api.Backends
import ProductionRag.Chat.Refinement
