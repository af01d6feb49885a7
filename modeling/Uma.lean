import Uma.Go.Basic
import Uma.Go.Strconv
import Uma.Go.Scan
import Uma.Go.Strings
import Uma.Go.Url
import Uma.Go.Hex
import Uma.Go.Json
import Uma.Go.JsonRoundTrip
import Uma.Go.JsonDecode
import Uma.Go.JsonText
import Uma.Version
import Uma.VersionError
import Uma.Catalog
import Uma.Negotiation
import Uma.Lnurlp
import Uma.PayRequest
import Uma.PayRequestJson
import Uma.PayRequestRoundTrip
import Uma.PayRequestWrites
import Uma.PayReqResponse
import Uma.PubKeyResponse
import Uma.Signing
