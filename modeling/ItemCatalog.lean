import ItemCatalog.CommandLine
import ItemCatalog.Main
import ItemCatalog.Proofs.Expression.Printing
import ItemCatalog.Proofs.Index.Pinned
import ItemCatalog.Proofs.Listing.StandIn
import ItemCatalog.Proofs.Ranking.Families
import ItemCatalog.Proofs.Retrieval.Fuzzy
import ItemCatalog.Proofs.Listing.Truncation
import ItemCatalog.Proofs.Filter.Score
import ItemCatalog.Proofs.Retrieval.Hints
import ItemCatalog.Proofs.Search.Lookup
import ItemCatalog.Proofs.Listing.Shape
import ItemCatalog.Proofs.Listing.Limits
import ItemCatalog.Proofs.Search.SortListing
import ItemCatalog.Proofs.Index.Answer
import ItemCatalog.Proofs.Request.Composed
import ItemCatalog.Proofs.Record.RoundTrip
import ItemCatalog.Proofs.Expression.Folding
import ItemCatalog.Proofs.Name.Sanitizing
import ItemCatalog.Proofs.Expression.Viability
import ItemCatalog.Proofs.Expression.Faults
import ItemCatalog.Proofs.Expression.Tokenizing
import ItemCatalog.Proofs.Name.Settled
import ItemCatalog.Proofs.Pattern.Spaced
import ItemCatalog.Proofs.Filter.Assembly
import ItemCatalog.Proofs.Retrieval.Relevance
import ItemCatalog.Proofs.Listing.Suppression
import ItemCatalog.Proofs.Ranking.Permutation
import ItemCatalog.Proofs.Index.Writing
import ItemCatalog.Proofs.Expression.ExactScore
import ItemCatalog.Proofs.Retrieval.Numeral
