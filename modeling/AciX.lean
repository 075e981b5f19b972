import AciX.Auth.Client
import AciX.Cart.Checkout
import AciX.Page.Content
import AciX.Report.Access
import AciX.Report.Undebited
import AciX.Geo.Robot
import AciX.Geo.Ip
import AciX.Geo.County
import AciX.Encoding.Base64
import AciX.Storefront.Request
import AciX.Calendar
import AciX.Search.Names
import AciX.Search.Results
import AciX.Search.Save
import AciX.Search.OptOut
import AciX.Search.Previews
import AciX.Search.Requery
import AciX.Search.Fallback
import AciX.Search.FileStore
import AciX.Search.Rejected
import AciX.Search.TextJson
import AciX.Subscription.Client
import AciX.Sort
import AciX.Encoding.Composite
import AciX.Page.Block
import AciX.Explore
import AciX.Gpd.Build
import AciX.Gpd.Complete
import AciX.Cache.Bulk
import AciX.Search.Rate
import AciX.Cache.Marker
import AciX.User.Cache
import AciX.Cache.Subclasses
import AciX.User.Login
import AciX.User.Credits
import AciX.Interleave
import AciX.Visit.Shopping
import AciX.Visit.Interleaving
import AciX.Visit.Spelling
import AciX.Report.Optional
import AciX.Cache.View
import AciX.User.Coherent
import AciX.Cache.Race
import AciX.Cache.Client
import AciX.Cache.Listing
import AciX.Cache.Monitor
import AciX.Person.GetID
import AciX.City.Lookup
import AciX.Person.Ingest
import AciX.Person.ProfileCache
import AciX.Agenda
import AciX.Gpd.Content
import AciX.Gpd.Rebuild
import AciX.Gpd.Walk
import AciX.Visit.Token
import AciX.Auth.Token
import AciX.Page.Selection
import AciX.Page.Faithful
import AciX.Stats.Update
import AciX.Catalog.Idempotent
import AciX.OptOut.Script
import AciX.CSharp.Type
import AciX.CSharp.Constant
import AciX.DalGen.Emit
import AciX.DalGen.Faithful
import AciX.Cart.Table
import AciX.Report.Ids
import AciX.Report.Item
import AciX.Search.Nullable
import AciX.Storefront.Payment
import AciX.Log.Cached
import AciX.Person.Lists
import AciX.Search.Partial
import AciX.User.Wallet
import AciX.Cart.Charged
import AciX.Gpd.Leaves
